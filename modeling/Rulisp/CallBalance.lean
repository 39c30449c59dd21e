import Rulisp.LispImage
import Rulisp.WireAgreement

/-!
# Calls in balance

A wrapper's body is a nest of forms, one around the other for each parameter
that has to be checked, lent, bound or begun.  Here the nest is generated as
`wrapper-form` does it, and run on any number of threads: calls within calls,
handlers that leave, frees and finalizers at any time.  What a call has begun
it ends on every way out, the free that waits for it is made, and nothing
refused reaches Rust.
-/

namespace Rulisp

open TransitionSystem

/-! ## The nest -/

/-- The forms of a wrapper's body; `sym` is the position of the parameter
whose symbol is meant. -/
inductive CallForm
  /-- `(call-with-…-arg sym (lambda (ptr len) inner))`, the helper of the
  type. -/
  | callWith (helper : ParamForm) (sym : ℕ) (inner : CallForm)
  /-- The type gate and `cell-begin-call`, and `inner` protected by
  `cell-end-call`. -/
  | gate (cls : Symbol) (sym : ℕ) (inner : CallForm)
  /-- `(let ((*live-callback* sym) (*callback-stash* nil)) inner)`. -/
  | bindCallback (sym : ℕ) (inner : CallForm)
  | checkToken (sym : ℕ) (inner : CallForm)
  | withForeignObjects (inner : CallForm)
  /-- The foreign call and what becomes of its status. -/
  | call
  deriving DecidableEq, Repr

/-- The body transformer that a parameter pushes. -/
def ParamForm.transformer (sym : ℕ) : ParamForm → Option (CallForm → CallForm)
  | .handle _ cls => some (.gate cls sym)
  | .callback _ => some (.bindCallback sym)
  | .storedCallback _ => some (.checkToken sym)
  | .optionScalar _ _ | .scalar _ _ => none
  | helper => some (.callWith helper sym)

/-- The loop over the parameters, from position `sym` on: it pushes. -/
def pushWrappers : ℕ → List ParamForm → List (CallForm → CallForm) →
    List (CallForm → CallForm)
  | _, [], wrappers => wrappers
  | sym, p :: params, wrappers =>
      pushWrappers (sym + 1) params
        (match p.transformer sym with
          | some w => w :: wrappers
          | none => wrappers)

/-- The `out-wrap` of `result-plumbing`. -/
def ResultForm.outWrap : ResultForm → CallForm → CallForm
  | .unit, body => body
  | _, body => .withForeignObjects body

/-- The body of the generated function. -/
def WrapperForm.body (form : WrapperForm) : CallForm :=
  (pushWrappers 0 (form.params.map (·.2)) []).foldl (fun inner w => w inner)
    (form.result.outWrap .call)

/-- The transformers of the parameters from position `sym` on, the first
parameter's outermost. -/
def nest : ℕ → List ParamForm → CallForm → CallForm
  | _, [], body => body
  | sym, p :: params, body =>
      match p.transformer sym with
      | some w => w (nest (sym + 1) params body)
      | none => nest (sym + 1) params body

theorem foldl_pushWrappers (sym : ℕ) (params : List ParamForm)
    (wrappers : List (CallForm → CallForm)) (body : CallForm) :
    (pushWrappers sym params wrappers).foldl (fun inner w => w inner) body =
      wrappers.foldl (fun inner w => w inner) (nest sym params body) := by
  induction params generalizing sym wrappers with
  | nil => rfl
  | cons p params ih =>
      rw [pushWrappers, ih, nest]
      cases p.transformer sym <;> rfl

/-- The first parameter is checked first. -/
theorem WrapperForm.body_eq (form : WrapperForm) :
    form.body = nest 0 (form.params.map (·.2)) (form.result.outWrap .call) :=
  foldl_pushWrappers 0 _ [] _

/-! ## Calls -/

inductive CallPhase
  /-- Before the session gate. -/
  | enter
  | eval (form : CallForm)
  /-- In the export; callbacks run in this phase. -/
  | foreign
  /-- Status 0, the value is being made. -/
  | decoding
  /-- A condition is being signaled and handlers run; `useValue` is the
  restart that a status offers. -/
  | signaling (useValue : Bool)
  /-- Returning or being unwound: the cleanup forms are left. -/
  | leaving
  deriving DecidableEq, Repr

/-- What a form that has been entered does when it is left. -/
inductive Cleanup
  /-- `(cell-end-call cell)`. -/
  | endCall (handle : ℕ)
  | unbind
  /-- A pinned vector or a foreign object is given up. -/
  | release
  deriving DecidableEq, Repr

/-- One call of a wrapper.  `begun`, `ended`, `refused` and `called` are
kept for the record only. -/
structure CallFrame where
  wrapper : CrateWrapper
  args : List LispValue
  phase : CallPhase
  /-- The innermost first. -/
  cleanups : List Cleanup
  begun : List ℕ
  ended : List ℕ
  refused : Bool
  called : Bool
  deriving Repr

def CallFrame.new (wrapper : CrateWrapper) (args : List LispValue) :
    CallFrame where
  wrapper := wrapper
  args := args
  phase := .enter
  cleanups := []
  begun := []
  ended := []
  refused := false
  called := false

namespace CallFrame

/-- The value of a parameter's symbol; a handle is the index of its object. -/
def arg (frame : CallFrame) (sym : ℕ) : LispValue :=
  frame.args[sym]?.getD .novalue

def params (frame : CallFrame) : List ParamForm :=
  frame.wrapper.form.params.map (·.2)

def refuse (frame : CallFrame) : CallFrame :=
  { frame with phase := .signaling false, refused := true }

/-- Go on inside a form with a cleanup. -/
def within (frame : CallFrame) (inner : CallForm) (cleanup : Cleanup) :
    CallFrame :=
  { frame with
    phase := .eval inner
    cleanups := cleanup :: frame.cleanups }

/-- The foreign arguments that are converted at the call itself. -/
def convertible (host : WireHost) (frame : CallFrame) : Bool :=
  frame.params.zipIdx.all fun (p, sym) =>
    match p.transformer sym with
    | some _ => true
    | none => (p.pass host (frame.arg sym)).isSome

/-- One form that touches no cell. -/
def evaluate (host : WireHost) (frame : CallFrame) : CallForm → CallFrame
  | .callWith helper sym inner =>
      if (helper.pass host (frame.arg sym)).isSome then frame.within inner .release
      else frame.refuse
  | .gate _ _ _ => frame
  | .bindCallback _ inner => frame.within inner .unbind
  | .checkToken sym inner =>
      match frame.arg sym with
      | .token _ => { frame with phase := .eval inner }
      | _ => frame.refuse
  | .withForeignObjects inner => frame.within inner .release
  | .call =>
      if frame.convertible host then
        { frame with phase := .foreign, called := true }
      else frame.refuse

/-- `cell-begin-call` went through. -/
def begin (frame : CallFrame) (handle : ℕ) (inner : CallForm) : CallFrame :=
  { frame.within inner (.endCall handle) with begun := handle :: frame.begun }

/-- The session gate. -/
def enter (frame : CallFrame) (session : ℕ) : CallFrame :=
  if frame.wrapper.ctx.session = session then
    { frame with phase := .eval frame.wrapper.form.body }
  else frame.refuse

def moveTo (frame : CallFrame) (phase : CallPhase) : CallFrame :=
  { frame with phase := phase }

end CallFrame

/-! ## Threads -/

inductive BalanceFrame
  | call (frame : CallFrame)
  /-- A free decided under the lock, `%maybe-foreign-free` is next. -/
  | releasing (handle : ℕ) (target : ℕ × ForeignPtr)
  /-- In a free shim. -/
  | inFree
  deriving Repr

/-- `left` and `freed` are kept for the record: the calls that are over, and
the free shims called. -/
structure BalanceState (n : ℕ) where
  session : ℕ
  handles : List HandleObject
  threads : Fin n → List BalanceFrame
  left : List CallFrame
  freed : List (ℕ × ℕ × ForeignPtr)

inductive BalanceAction (n : ℕ)
  /-- Lisp code on the thread calls a wrapper: at its top level, in a
  callback, in a handler or in a finalizer. -/
  | enter (thread : Fin n) (wrapper : CrateWrapper) (args : List LispValue)
  /-- The session gate, or the next form of the nest. -/
  | evaluate (thread : Fin n)
  | foreignReturn (thread : Fin n) (status : ℤ)
  /-- The value of status 0, a handle's with the pointer in the out-parameter;
  `none` when making it signals. -/
  | decode (thread : Fin n) (value : Option ℕ)
  /-- A handler invokes `use-value`. -/
  | useValue (thread : Fin n)
  /-- A handler leaves, or nothing handles the condition. -/
  | unwind (thread : Fin n)
  | cleanup (thread : Fin n)
  /-- `free` or the finalizer. -/
  | free (thread : Fin n) (handle : ℕ)
  | foreignFree (thread : Fin n)
  | freeReturn (thread : Fin n)
  deriving Repr

namespace BalanceState

variable {n : ℕ}

def initial (n session : ℕ) : BalanceState n where
  session := session
  handles := []
  threads := fun _ => []
  left := []
  freed := []

def setFrames (state : BalanceState n) (thread : Fin n)
    (frames : List BalanceFrame) : BalanceState n :=
  { state with threads := Function.update state.threads thread frames }

def setCell (state : BalanceState n) (index : ℕ) (object : HandleObject)
    (cell : Cell ℕ ForeignPtr) : BalanceState n :=
  { state with handles := state.handles.set index { object with cell := cell } }

/-- The type gate and `cell-begin-call`. -/
def gate (state : BalanceState n) (thread : Fin n) (rest : List BalanceFrame)
    (frame : CallFrame) (cls : Symbol) (sym : ℕ) (inner : CallForm) :
    BalanceState n :=
  let refused := state.setFrames thread (.call frame.refuse :: rest)
  match frame.arg sym with
  | .handle index =>
      match state.handles[index]? with
      | none => refused
      | some object =>
          if object.cls = cls then
            match object.cell.beginCall state.session
                frame.wrapper.ctx.generation with
            | (none, cell) =>
                (state.setCell index object cell).setFrames thread
                  (.call (frame.begin index inner) :: rest)
            | (some _, _) => refused
          else refused
  | _ => refused

/-- A free, deferred or not, is run on top of the thread's frames. -/
def release (state : BalanceState n) (thread : Fin n) (handle : ℕ)
    (target : Option (ℕ × ForeignPtr)) (rest : List BalanceFrame) :
    BalanceState n :=
  match target with
  | none => state.setFrames thread rest
  | some target => state.setFrames thread (.releasing handle target :: rest)

/-- `%make-crate-handle`; without a recorded free shim it signals. -/
def makeHandle (state : BalanceState n) (thread : Fin n)
    (rest : List BalanceFrame) (frame : CallFrame) (rustName : Datum)
    (cls : Symbol) (ptr : ℕ) : BalanceState n :=
  let ctx := frame.wrapper.ctx
  match rustName.stringDesignator.bind fun name => ctx.freeTable.lookup name with
  | none => state.setFrames thread (.call (frame.moveTo (.signaling false)) :: rest)
  | some freePtr =>
      { state.setFrames thread (.call (frame.moveTo .leaving) :: rest) with
        handles := state.handles ++
          [{ cls := cls
             cell := makeCell ptr ctx.generation ctx.session freePtr }] }

/-- One cleanup form, or the end of the call. -/
def runCleanup (state : BalanceState n) (thread : Fin n)
    (rest : List BalanceFrame) (frame : CallFrame) : Option (BalanceState n) :=
  match frame.cleanups with
  | [] =>
      some { state.setFrames thread rest with left := frame :: state.left }
  | .endCall handle :: cleanups =>
      match state.handles[handle]? with
      | none => none
      | some object =>
          some ((state.setCell handle object object.cell.endCall.2).release
            thread handle object.cell.endCall.1
              (.call { frame with
                cleanups := cleanups
                ended := handle :: frame.ended } :: rest))
  | _ :: cleanups =>
      some (state.setFrames thread
        (.call { frame with cleanups := cleanups } :: rest))

def step (host : WireHost) (state : BalanceState n) :
    BalanceAction n → Option (BalanceState n)
  | .enter thread wrapper args =>
      if args.length = wrapper.form.params.length then
        some (state.setFrames thread
          (.call (.new wrapper args) :: state.threads thread))
      else none
  | .evaluate thread =>
      match state.threads thread with
      | .call frame :: rest =>
          match frame.phase with
          | .enter =>
              some (state.setFrames thread
                (.call (frame.enter state.session) :: rest))
          | .eval (.gate cls sym inner) =>
              some (state.gate thread rest frame cls sym inner)
          | .eval form =>
              some (state.setFrames thread
                (.call (frame.evaluate host form) :: rest))
          | _ => none
      | _ => none
  | .foreignReturn thread status =>
      match state.threads thread with
      | .call frame :: rest =>
          if frame.phase = .foreign then
            some (state.setFrames thread
              (.call (frame.moveTo
                (if status = 0 then .decoding else .signaling true)) :: rest))
          else none
      | _ => none
  | .decode thread value =>
      match state.threads thread with
      | .call frame :: rest =>
          if frame.phase = .decoding then
            match value, frame.wrapper.form.result with
            | none, _ =>
                some (state.setFrames thread
                  (.call (frame.moveTo (.signaling false)) :: rest))
            | some ptr, .handle rustName cls =>
                some (state.makeHandle thread rest frame rustName cls ptr)
            | some _, _ =>
                some (state.setFrames thread
                  (.call (frame.moveTo .leaving) :: rest))
          else none
      | _ => none
  | .useValue thread =>
      match state.threads thread with
      | .call frame :: rest =>
          if frame.phase = .signaling true then
            some (state.setFrames thread
              (.call (frame.moveTo .leaving) :: rest))
          else none
      | _ => none
  | .unwind thread =>
      match state.threads thread with
      | .call frame :: rest =>
          match frame.phase with
          | .signaling _ =>
              some (state.setFrames thread
                (.call (frame.moveTo .leaving) :: rest))
          | _ => none
      | _ => none
  | .cleanup thread =>
      match state.threads thread with
      | .call frame :: rest =>
          if frame.phase = .leaving then state.runCleanup thread rest frame
          else none
      | _ => none
  | .free thread handle =>
      match state.handles[handle]? with
      | none => none
      | some object =>
          some ((state.setCell handle object object.cell.free.2.2).release
            thread handle object.cell.free.2.1 (state.threads thread))
  | .foreignFree thread =>
      match state.threads thread with
      | .releasing handle target :: rest =>
          match state.handles[handle]? with
          | none => none
          | some object =>
              match object.cell.maybeForeignFree state.session target with
              | none => some (state.setFrames thread rest)
              | some target =>
                  some { state.setFrames thread (.inFree :: rest) with
                    freed := (handle, target) :: state.freed }
      | _ => none
  | .freeReturn thread =>
      match state.threads thread with
      | .inFree :: rest => some (state.setFrames thread rest)
      | _ => none

end BalanceState

def balanceSystem (host : WireHost) (n : ℕ) :
    System (BalanceState n) (BalanceAction n) where
  step := BalanceState.step host

/-! ## One call -/

namespace CallFrame

variable {host : WireHost} {frame : CallFrame}

/-- The parameter has been accepted: its cell is begun, or its argument is
passed. -/
def Accepts (host : WireHost) (frame : CallFrame) (sym : ℕ) : ParamForm → Prop
  | .handle _ _ => ∃ index, frame.arg sym = .handle index ∧ index ∈ frame.begun
  | p => (p.pass host (frame.arg sym)).isSome = true

/-- Accepted, if it has a form of the nest at all. -/
def Checked (host : WireHost) (frame : CallFrame) (sym : ℕ) : Prop :=
  ∀ p, frame.params[sym]? = some p → (p.transformer sym).isSome = true →
    frame.Accepts host sym p

/-- What is left of the nest, and that the parameters before are checked. -/
def Progress (host : WireHost) (frame : CallFrame) (form : CallForm) : Prop :=
  (∃ sym, form = nest sym (frame.params.drop sym)
      (frame.wrapper.form.result.outWrap .call) ∧
      ∀ before < sym, frame.Checked host before) ∨
    (form = .call ∧ ∀ sym, frame.Checked host sym)

structure Ok (host : WireHost) (frame : CallFrame) : Prop where
  ledger : ∀ handle, frame.begun.count handle =
    frame.ended.count handle + frame.cleanups.count (.endCall handle)
  fresh : (frame.phase = .enter ∨ ∃ form, frame.phase = .eval form) →
    frame.called = false ∧ frame.refused = false
  refusal : frame.refused = true → frame.called = false
  progress : ∀ form, frame.phase = .eval form → frame.Progress host form
  accepted : frame.called = true → ∀ sym p, frame.params[sym]? = some p →
    frame.Accepts host sym p

theorem Accepts.mono {frame' : CallFrame} {sym : ℕ} {p : ParamForm}
    (haccepts : frame.Accepts host sym p) (hargs : frame'.args = frame.args)
    (hbegun : ∀ handle ∈ frame.begun, handle ∈ frame'.begun) :
    frame'.Accepts host sym p := by
  have harg : frame'.arg sym = frame.arg sym := by simp only [arg, hargs]
  cases p with
  | handle rustName cls =>
      obtain ⟨index, hindex, hmem⟩ := haccepts
      exact ⟨index, harg.trans hindex, hbegun index hmem⟩
  | _ =>
      simp only [Accepts] at haccepts ⊢
      rw [harg]
      exact haccepts

/-- The first form of what is left of the nest is the next parameter's, or
all of them are checked. -/
theorem nest_cases (params : List ParamForm) (body : CallForm) (sym : ℕ) :
    (nest sym (params.drop sym) body = body ∧
        ∀ after p, sym ≤ after → params[after]? = some p →
          p.transformer after = none) ∨
      ∃ next p w, sym ≤ next ∧ params[next]? = some p ∧
        p.transformer next = some w ∧
        nest sym (params.drop sym) body =
          w (nest (next + 1) (params.drop (next + 1)) body) ∧
        ∀ between p, sym ≤ between → between < next →
          params[between]? = some p → p.transformer between = none := by
  induction hlength : params.length - sym generalizing sym with
  | zero =>
      have hdrop : params.drop sym = [] := List.drop_eq_nil_iff.mpr (by omega)
      refine .inl ⟨by rw [hdrop]; rfl, fun after p hafter hp => ?_⟩
      have hlt := (List.getElem?_eq_some_iff.mp hp).1
      omega
  | succ length ih =>
      have hlt : sym < params.length := by omega
      have hp : params[sym]? = some params[sym] := List.getElem?_eq_getElem hlt
      have hdrop : params.drop sym = params[sym] :: params.drop (sym + 1) :=
        List.drop_eq_getElem_cons hlt
      cases hw : params[sym].transformer sym with
      | some w =>
          refine .inr ⟨sym, params[sym], w, le_refl sym, hp, hw, ?_, ?_⟩
          · rw [hdrop, nest, hw]
          · intro between p hle hbetween
            omega
      | none =>
          have hnest : nest sym (params.drop sym) body =
              nest (sym + 1) (params.drop (sym + 1)) body := by
            rw [hdrop, nest, hw]
          have hsym : ∀ p, params[sym]? = some p → p.transformer sym = none := by
            intro p hsame
            rw [hp, Option.some_inj] at hsame
            rw [← hsame, hw]
          rw [hnest]
          rcases ih (sym + 1) (by omega) with ⟨hbody, hrest⟩ | hnext
          · refine .inl ⟨hbody, fun after p hafter hafterp => ?_⟩
            by_cases heq : after = sym
            · subst heq
              exact hsym p hafterp
            · exact hrest after p (by omega) hafterp
          · obtain ⟨next, p, w, hle, hnextp, hnextw, hform, hbetween⟩ := hnext
            refine .inr ⟨next, p, w, by omega, hnextp, hnextw, hform, ?_⟩
            intro between p' hle' hlt' hbetweenp
            by_cases heq : between = sym
            · subst heq
              exact hsym p' hbetweenp
            · exact hbetween between p' (by omega) hlt' hbetweenp

/-- What the next form is, and what is checked before it. -/
theorem Progress.cases {form : CallForm} (hprogress : frame.Progress host form) :
    (form = .call ∧ ∀ sym, frame.Checked host sym) ∨
      (form = .withForeignObjects .call ∧ ∀ sym, frame.Checked host sym) ∨
      ∃ sym p w, frame.params[sym]? = some p ∧ p.transformer sym = some w ∧
        form = w (nest (sym + 1) (frame.params.drop (sym + 1))
          (frame.wrapper.form.result.outWrap .call)) ∧
        ∀ before < sym, frame.Checked host before := by
  rcases hprogress with ⟨sym, rfl, hbefore⟩ | hcall
  · rcases nest_cases frame.params
      (frame.wrapper.form.result.outWrap .call) sym with
      ⟨hbody, hrest⟩ | ⟨next, p, w, hle, hp, hw, hform, hbetween⟩
    · have hall : ∀ sym, frame.Checked host sym := by
        intro other
        by_cases hlt : other < sym
        · exact hbefore other hlt
        · intro p hp hsome
          rw [hrest other p (by omega) hp] at hsome
          cases hsome
      rw [hbody]
      cases frame.wrapper.form.result with
      | unit => exact .inl ⟨rfl, hall⟩
      | _ => exact .inr (.inl ⟨rfl, hall⟩)
    · refine .inr (.inr ⟨next, p, w, hp, hw, hform, fun before hlt => ?_⟩)
      by_cases hearly : before < sym
      · exact hbefore before hearly
      · intro p' hp' hsome
        rw [hbetween before p' (by omega) hlt hp'] at hsome
        cases hsome
  · exact .inl hcall

/-- The parameters before the next one are checked when this one is. -/
theorem checked_succ {sym : ℕ} {p : ParamForm} (hp : frame.params[sym]? = some p)
    (haccepts : frame.Accepts host sym p)
    (hbefore : ∀ before < sym, frame.Checked host before) :
    ∀ before < sym + 1, frame.Checked host before := by
  intro before hlt
  by_cases heq : before = sym
  · subst heq
    intro p' hp' _
    rw [hp, Option.some_inj] at hp'
    exact hp' ▸ haccepts
  · exact hbefore before (by omega)

theorem Checked.mono {frame' : CallFrame} {sym : ℕ}
    (hchecked : frame.Checked host sym)
    (hwrapper : frame'.wrapper = frame.wrapper)
    (hargs : frame'.args = frame.args)
    (hbegun : ∀ handle ∈ frame.begun, handle ∈ frame'.begun) :
    frame'.Checked host sym := by
  intro p hp hsome
  have hparams : frame'.params = frame.params := by simp only [params, hwrapper]
  rw [hparams] at hp
  exact (hchecked p hp hsome).mono hargs hbegun

theorem Ok.new (host : WireHost) (wrapper : CrateWrapper)
    (args : List LispValue) : (CallFrame.new wrapper args).Ok host := by
  refine ⟨fun _ => rfl, fun _ => ⟨rfl, rfl⟩, fun _ => rfl, ?_, ?_⟩
  · intro form hphase
    cases hphase
  · intro hcalled
    cases hcalled

theorem Ok.refuse (hok : frame.Ok host) (hcalled : frame.called = false) :
    frame.refuse.Ok host := by
  refine ⟨hok.ledger, ?_, fun _ => hcalled, ?_, ?_⟩
  · rintro (hphase | ⟨form, hphase⟩) <;> cases hphase
  · intro form hphase
    cases hphase
  · intro htrue
    rw [← hcalled, CallFrame.refuse] at *
    exact hok.accepted htrue

/-- A phase after the nest. -/
theorem Ok.moveTo (hok : frame.Ok host) {phase : CallPhase}
    (henter : phase ≠ .enter) (heval : ∀ form, phase ≠ .eval form) :
    (frame.moveTo phase).Ok host := by
  refine ⟨hok.ledger, ?_, hok.refusal, ?_, hok.accepted⟩
  · rintro (hphase | ⟨form, hphase⟩)
    · exact absurd hphase henter
    · exact absurd hphase (heval form)
  · intro form hphase
    exact absurd hphase (heval form)

theorem Ok.enter (hok : frame.Ok host) (hphase : frame.phase = .enter)
    (session : ℕ) : (frame.enter session).Ok host := by
  have hfresh := hok.fresh (.inl hphase)
  unfold CallFrame.enter
  split
  · refine ⟨hok.ledger, fun _ => hfresh, hok.refusal, ?_, hok.accepted⟩
    intro form hform
    cases hform
    refine .inl ⟨0, ?_, fun before hlt => absurd hlt (Nat.not_lt_zero _)⟩
    rw [WrapperForm.body_eq]
    rfl
  · exact hok.refuse hfresh.1

theorem Ok.within (hok : frame.Ok host) {form inner : CallForm}
    (hphase : frame.phase = .eval form) {cleanup : Cleanup}
    (hcleanup : ∀ handle, cleanup ≠ .endCall handle)
    (hprogress : (frame.within inner cleanup).Progress host inner) :
    (frame.within inner cleanup).Ok host := by
  have hfresh := hok.fresh (.inr ⟨form, hphase⟩)
  refine ⟨fun handle => ?_, fun _ => hfresh, hok.refusal, ?_, hok.accepted⟩
  · have hledger := hok.ledger handle
    simp only [CallFrame.within]
    rw [List.count_cons_of_ne (hcleanup handle)]
    exact hledger
  · intro form' hform'
    cases hform'
    exact hprogress

/-- A form that touches no cell leaves the call in order. -/
theorem Ok.evaluate (hok : frame.Ok host) {form : CallForm}
    (hphase : frame.phase = .eval form)
    (hgate : ∀ cls sym inner, form ≠ .gate cls sym inner) :
    (frame.evaluate host form).Ok host := by
  have hfresh := hok.fresh (.inr ⟨form, hphase⟩)
  rcases (hok.progress form hphase).cases with
    ⟨rfl, hall⟩ | ⟨rfl, hall⟩ | ⟨sym, p, w, hp, hw, rfl, hbefore⟩
  · simp only [CallFrame.evaluate]
    split
    · rename_i hconvertible
      refine ⟨hok.ledger, ?_, ?_, ?_, ?_⟩
      · rintro (hphase | ⟨form, hphase⟩) <;> cases hphase
      · intro hrefused
        rw [hfresh.2] at hrefused
        cases hrefused
      · intro form hform
        cases hform
      · intro _ sym p hp
        have haccepts : frame.Accepts host sym p := by
          cases hw : p.transformer sym with
          | some w => exact hall sym p hp (by rw [hw]; rfl)
          | none =>
              have hzip : (p, sym) ∈ frame.params.zipIdx := by
                rw [List.mem_zipIdx_iff_getElem?]
                exact hp
              have hpass := List.all_eq_true.mp hconvertible _ hzip
              simp only [hw] at hpass
              cases p with
              | optionScalar cffi placeholder => exact hpass
              | scalar cffi isBool => exact hpass
              | _ => cases hw
        exact haccepts.mono rfl fun _ hmem => hmem
    · exact hok.refuse hfresh.1
  · exact hok.within hphase (fun _ => by simp)
      (.inr ⟨rfl, fun sym => (hall sym).mono rfl rfl fun _ hmem => hmem⟩)
  · have hnext : ∀ {cleanup : Cleanup}, (∀ handle, cleanup ≠ .endCall handle) →
        frame.Accepts host sym p →
        (frame.within (nest (sym + 1) (frame.params.drop (sym + 1))
          (frame.wrapper.form.result.outWrap .call)) cleanup).Ok host := by
      intro cleanup hcleanup haccepts
      refine hok.within hphase hcleanup (.inl ⟨sym + 1, rfl, fun before hlt => ?_⟩)
      exact (checked_succ hp haccepts hbefore before hlt).mono rfl rfl
        fun _ hmem => hmem
    cases p with
    | handle rustName cls =>
        cases hw
        exact absurd rfl (hgate _ _ _)
    | callback trampoline =>
        cases hw
        exact hnext (fun _ => by simp) rfl
    | storedCallback trampoline =>
        cases hw
        simp only [CallFrame.evaluate]
        split
        · rename_i id harg
          have haccepts : frame.Accepts host sym (.storedCallback trampoline) := by
            simp [Accepts, harg, ParamForm.pass]
          refine ⟨hok.ledger, fun _ => hfresh, hok.refusal, ?_, hok.accepted⟩
          intro form hform
          cases hform
          refine .inl ⟨sym + 1, rfl, fun before hlt => ?_⟩
          exact (checked_succ hp haccepts hbefore before hlt).mono rfl rfl
            fun _ hmem => hmem
        · exact hok.refuse hfresh.1
    | optionScalar cffi placeholder => cases hw
    | scalar cffi isBool => cases hw
    | _ =>
        cases hw
        simp only [CallFrame.evaluate]
        split
        · rename_i hpass
          exact hnext (fun _ => by simp) hpass
        · exact hok.refuse hfresh.1

/-- So does `cell-begin-call`, with one more cell to end. -/
theorem Ok.begin (hok : frame.Ok host) {cls : Symbol} {sym : ℕ} {inner : CallForm}
    (hphase : frame.phase = .eval (.gate cls sym inner)) {handle : ℕ}
    (harg : frame.arg sym = .handle handle) :
    (frame.begin handle inner).Ok host := by
  have hfresh := hok.fresh (.inr ⟨_, hphase⟩)
  have hmore : ∀ other ∈ frame.begun, other ∈ (frame.begin handle inner).begun :=
    fun other hmem => List.mem_cons_of_mem _ hmem
  refine ⟨fun other => ?_, fun _ => hfresh, hok.refusal, ?_, ?_⟩
  · have hledger := hok.ledger other
    simp only [CallFrame.begin, CallFrame.within, List.count_cons,
      beq_iff_eq, Cleanup.endCall.injEq]
    omega
  · intro form hform
    cases hform
    rcases (hok.progress _ hphase).cases with
      ⟨hcall, -⟩ | ⟨hcall, -⟩ | ⟨sym', p, w, hp, hw, hform, hbefore⟩
    · cases hcall
    · cases hcall
    · cases p with
      | handle rustName cls' =>
          cases hw
          cases hform
          refine .inl ⟨sym + 1, rfl, fun before hlt => ?_⟩
          by_cases heq : before = sym
          · subst heq
            intro p' hp' _
            have hparam : frame.params[before]? = some p' := hp'
            rw [hp, Option.some_inj] at hparam
            subst hparam
            exact ⟨handle, harg, List.mem_cons_self⟩
          · exact (hbefore before (by omega)).mono rfl rfl hmore
      | callback trampoline =>
          cases hw
          cases hform
      | storedCallback trampoline =>
          cases hw
          cases hform
      | optionScalar cffi placeholder => cases hw
      | scalar cffi isBool => cases hw
      | _ =>
          cases hw
          cases hform
  · intro hcalled
    change frame.called = true at hcalled
    rw [hfresh.1] at hcalled
    cases hcalled

end CallFrame

/-! ## Counting over the threads -/

namespace BalanceFrame

/-- How often a frame has begun the cell and not ended it. -/
def held (handle : ℕ) : BalanceFrame → ℕ
  | .call frame => frame.cleanups.count (.endCall handle)
  | _ => 0

def releases (handle : ℕ) : BalanceFrame → ℕ
  | .releasing other _ => if other = handle then 1 else 0
  | _ => 0

end BalanceFrame

def stackCount (weight : BalanceFrame → ℕ) (stack : List BalanceFrame) : ℕ :=
  (stack.map weight).sum

@[simp] theorem stackCount_nil (weight : BalanceFrame → ℕ) :
    stackCount weight [] = 0 := rfl

@[simp] theorem stackCount_cons (weight : BalanceFrame → ℕ)
    (frame : BalanceFrame) (stack : List BalanceFrame) :
    stackCount weight (frame :: stack) = weight frame + stackCount weight stack := by
  simp [stackCount]

namespace BalanceState

variable {n : ℕ}

def total (state : BalanceState n) (weight : BalanceFrame → ℕ) : ℕ :=
  ∑ thread, stackCount weight (state.threads thread)

/-- How many active calls hold the cell, with repetitions. -/
def heldCount (state : BalanceState n) (handle : ℕ) : ℕ :=
  state.total (BalanceFrame.held handle)

/-- How many frees of the handle are decided and not made. -/
def releaseCount (state : BalanceState n) (handle : ℕ) : ℕ :=
  state.total (BalanceFrame.releases handle)

/-- How often the free shim was called on the handle. -/
def freedCount (state : BalanceState n) (handle : ℕ) : ℕ :=
  state.freed.countP fun entry => entry.1 = handle

theorem total_setFrames (state : BalanceState n) (thread : Fin n)
    (frames : List BalanceFrame) (weight : BalanceFrame → ℕ) :
    (state.setFrames thread frames).total weight +
        stackCount weight (state.threads thread) =
      state.total weight + stackCount weight frames :=
  sum_update_add (stackCount weight) state.threads thread frames

theorem stackCount_le_total (state : BalanceState n) (thread : Fin n)
    (weight : BalanceFrame → ℕ) :
    stackCount weight (state.threads thread) ≤ state.total weight :=
  weight_le_sum (stackCount weight) state.threads thread

theorem mem_setFrames {state : BalanceState n} {thread other : Fin n}
    {frames : List BalanceFrame} {frame : BalanceFrame}
    (hmem : frame ∈ (state.setFrames thread frames).threads other) :
    frame ∈ frames ∨ frame ∈ state.threads other := by
  by_cases heq : other = thread
  · subst heq
    left
    simpa [setFrames] using hmem
  · right
    simpa [setFrames, Function.update_of_ne heq] using hmem

/-! ## What one step can do -/

inductive Outcome (host : WireHost) (state : BalanceState n) :
    BalanceState n → Prop
  | entered (thread : Fin n) (wrapper : CrateWrapper) (args : List LispValue) :
      Outcome host state (state.setFrames thread
        (.call (.new wrapper args) :: state.threads thread))
  /-- The call goes on and touches no cell. -/
  | moved (thread : Fin n) (frame frame' : CallFrame) (rest : List BalanceFrame)
      (htop : state.threads thread = .call frame :: rest)
      (hheld : ∀ handle, frame'.cleanups.count (.endCall handle) =
        frame.cleanups.count (.endCall handle))
      (hok : frame.Ok host → frame'.Ok host) :
      Outcome host state (state.setFrames thread (.call frame' :: rest))
  | begun (thread : Fin n) (frame : CallFrame) (rest : List BalanceFrame)
      (cls : Symbol) (sym : ℕ) (inner : CallForm) (handle : ℕ)
      (object : HandleObject)
      (htop : state.threads thread = .call frame :: rest)
      (hphase : frame.phase = .eval (.gate cls sym inner))
      (harg : frame.arg sym = .handle handle)
      (hobject : state.handles[handle]? = some object)
      (hverdict : (object.cell.beginCall state.session
        frame.wrapper.ctx.generation).1 = none) :
      Outcome host state
        ((state.setCell handle object
          { object.cell with inFlight := object.cell.inFlight + 1 }).setFrames
            thread (.call (frame.begin handle inner) :: rest))
  | made (thread : Fin n) (frame : CallFrame) (rest : List BalanceFrame)
      (object : HandleObject)
      (htop : state.threads thread = .call frame :: rest)
      (hlive : object.cell.state = .live) (hidle : object.cell.inFlight = 0) :
      Outcome host state
        { state.setFrames thread (.call (frame.moveTo .leaving) :: rest) with
          handles := state.handles ++ [object] }
  | ended (thread : Fin n) (frame : CallFrame) (rest : List BalanceFrame)
      (handle : ℕ) (cleanups : List Cleanup) (object : HandleObject)
      (htop : state.threads thread = .call frame :: rest)
      (hphase : frame.phase = .leaving)
      (hcleanups : frame.cleanups = .endCall handle :: cleanups)
      (hobject : state.handles[handle]? = some object) :
      Outcome host state
        ((state.setCell handle object object.cell.endCall.2).release thread
          handle object.cell.endCall.1
            (.call { frame with
              cleanups := cleanups
              ended := handle :: frame.ended } :: rest))
  | left (thread : Fin n) (frame : CallFrame) (rest : List BalanceFrame)
      (htop : state.threads thread = .call frame :: rest)
      (hcleanups : frame.cleanups = []) :
      Outcome host state
        { state.setFrames thread rest with left := frame :: state.left }
  | freeing (thread : Fin n) (handle : ℕ) (object : HandleObject)
      (hobject : state.handles[handle]? = some object) :
      Outcome host state
        ((state.setCell handle object object.cell.free.2.2).release thread
          handle object.cell.free.2.1 (state.threads thread))
  | shimCalled (thread : Fin n) (handle : ℕ) (target : ℕ × ForeignPtr)
      (rest : List BalanceFrame)
      (htop : state.threads thread = .releasing handle target :: rest) :
      Outcome host state
        { state.setFrames thread (.inFree :: rest) with
          freed := (handle, target) :: state.freed }
  /-- The pointer is one of a dead session. -/
  | shimSkipped (thread : Fin n) (handle : ℕ) (target : ℕ × ForeignPtr)
      (rest : List BalanceFrame) (object : HandleObject)
      (htop : state.threads thread = .releasing handle target :: rest)
      (hobject : state.handles[handle]? = some object)
      (hsession : object.cell.session ≠ state.session) :
      Outcome host state (state.setFrames thread rest)
  | freeReturned (thread : Fin n) (rest : List BalanceFrame)
      (htop : state.threads thread = .inFree :: rest) :
      Outcome host state (state.setFrames thread rest)

theorem gate_outcome {host : WireHost} {state : BalanceState n} {thread : Fin n}
    {frame : CallFrame} {rest : List BalanceFrame} {cls : Symbol} {sym : ℕ}
    {inner : CallForm} (htop : state.threads thread = .call frame :: rest)
    (hphase : frame.phase = .eval (.gate cls sym inner)) :
    Outcome host state (state.gate thread rest frame cls sym inner) := by
  have hrefused : Outcome host state
      (state.setFrames thread (.call frame.refuse :: rest)) :=
    .moved thread frame frame.refuse rest htop (fun _ => rfl)
      fun hok => hok.refuse (hok.fresh (.inr ⟨_, hphase⟩)).1
  unfold gate
  split
  · rename_i index harg
    split
    · exact hrefused
    · rename_i object hobject
      split
      · split
        · rename_i cell hbegin
          have hverdict : (object.cell.beginCall state.session
              frame.wrapper.ctx.generation).1 = none := by rw [hbegin]
          have hcell := Cell.beginCall_snd_of_none hverdict
          rw [hbegin] at hcell
          simp only at hcell
          rw [hcell]
          exact .begun thread frame rest cls sym inner index object htop hphase
            harg hobject hverdict
        · exact hrefused
      · exact hrefused
  · exact hrefused

theorem moved_to {host : WireHost} {state : BalanceState n} {thread : Fin n}
    {frame : CallFrame} {rest : List BalanceFrame} {phase : CallPhase}
    (htop : state.threads thread = .call frame :: rest)
    (henter : phase ≠ .enter) (heval : ∀ form, phase ≠ .eval form) :
    Outcome host state
      (state.setFrames thread (.call (frame.moveTo phase) :: rest)) :=
  .moved thread frame (frame.moveTo phase) rest htop (fun _ => rfl)
    fun hok => hok.moveTo henter heval

theorem count_evaluate (host : WireHost) (frame : CallFrame) (form : CallForm)
    (handle : ℕ) :
    (frame.evaluate host form).cleanups.count (.endCall handle) =
      frame.cleanups.count (.endCall handle) := by
  unfold CallFrame.evaluate
  split <;> (try split) <;>
    simp [CallFrame.within, CallFrame.refuse]

theorem runCleanup_outcome {host : WireHost} {state next : BalanceState n}
    {thread : Fin n} {frame : CallFrame} {rest : List BalanceFrame}
    (htop : state.threads thread = .call frame :: rest)
    (hphase : frame.phase = .leaving)
    (hstep : state.runCleanup thread rest frame = some next) :
    Outcome host state next := by
  unfold runCleanup at hstep
  split at hstep
  · rename_i hcleanups
    cases hstep
    exact .left thread frame rest htop hcleanups
  · rename_i handle cleanups hcleanups
    split at hstep
    · cases hstep
    · rename_i object hobject
      cases hstep
      exact .ended thread frame rest handle cleanups object htop hphase hcleanups
        hobject
  · rename_i cleanup cleanups hother hcleanups
    cases hstep
    have hne : ∀ handle, cleanup ≠ .endCall handle := hother
    have hcount : ∀ handle, cleanups.count (.endCall handle) =
        frame.cleanups.count (.endCall handle) := by
      intro handle
      rw [hcleanups, List.count_cons_of_ne (hne handle)]
    refine .moved thread frame _ rest htop hcount fun hok => ?_
    refine ⟨fun handle => ?_, ?_, hok.refusal, ?_, hok.accepted⟩
    · rw [hok.ledger handle, ← hcount handle]
    · exact hok.fresh
    · intro form hform
      change frame.phase = .eval form at hform
      rw [hphase] at hform
      cases hform

theorem step_outcome {host : WireHost} {state next : BalanceState n}
    {action : BalanceAction n} (hstep : state.step host action = some next) :
    Outcome host state next := by
  cases action with
  | enter thread wrapper args =>
      simp only [step] at hstep
      split at hstep
      · cases hstep
        exact .entered thread wrapper args
      · cases hstep
  | evaluate thread =>
      simp only [step] at hstep
      split at hstep
      · rename_i frame rest htop
        split at hstep
        · rename_i hphase
          cases hstep
          refine .moved thread frame _ rest htop (fun handle => ?_)
            fun hok => hok.enter hphase state.session
          unfold CallFrame.enter
          split <;> rfl
        · rename_i cls sym inner hphase
          cases hstep
          exact gate_outcome htop hphase
        · rename_i form hgate hphase
          cases hstep
          refine .moved thread frame _ rest htop
            (fun handle => count_evaluate host frame form handle) fun hok => ?_
          refine hok.evaluate hphase fun cls sym inner heq => ?_
          exact hgate cls sym inner heq
        · cases hstep
      · cases hstep
  | foreignReturn thread status =>
      simp only [step] at hstep
      split at hstep
      · rename_i frame rest htop
        split at hstep
        · cases hstep
          exact moved_to htop (by split <;> simp) (fun _ => by split <;> simp)
        · cases hstep
      · cases hstep
  | decode thread value =>
      simp only [step] at hstep
      split at hstep
      · rename_i frame rest htop
        split at hstep
        · split at hstep
          · cases hstep
            exact moved_to htop (by simp) (by simp)
          · cases hstep
            simp only [makeHandle]
            split
            · exact moved_to htop (by simp) (by simp)
            · exact .made thread frame rest _ htop rfl rfl
          · cases hstep
            exact moved_to htop (by simp) (by simp)
        · cases hstep
      · cases hstep
  | useValue thread =>
      simp only [step] at hstep
      split at hstep
      · rename_i frame rest htop
        split at hstep
        · cases hstep
          exact moved_to htop (by simp) (by simp)
        · cases hstep
      · cases hstep
  | unwind thread =>
      simp only [step] at hstep
      split at hstep
      · rename_i frame rest htop
        split at hstep
        · cases hstep
          exact moved_to htop (by simp) (by simp)
        · cases hstep
      · cases hstep
  | cleanup thread =>
      simp only [step] at hstep
      split at hstep
      · rename_i frame rest htop
        split at hstep
        · rename_i hphase
          exact runCleanup_outcome htop hphase hstep
        · cases hstep
      · cases hstep
  | free thread handle =>
      simp only [step] at hstep
      split at hstep
      · cases hstep
      · rename_i object hobject
        cases hstep
        exact .freeing thread handle object hobject
  | foreignFree thread =>
      simp only [step] at hstep
      split at hstep
      · rename_i handle target rest htop
        split at hstep
        · cases hstep
        · rename_i object hobject
          by_cases hsession : object.cell.session = state.session
          · simp only [Cell.maybeForeignFree, if_pos hsession] at hstep
            cases hstep
            exact .shimCalled thread handle target rest htop
          · simp only [Cell.maybeForeignFree, if_neg hsession] at hstep
            cases hstep
            exact .shimSkipped thread handle target rest object htop hobject
              hsession
      · cases hstep
  | freeReturn thread =>
      simp only [step] at hstep
      split at hstep
      · rename_i rest htop
        cases hstep
        exact .freeReturned thread rest htop
      · cases hstep

/-! ## The invariant -/

/-- The free shim's call that releases the object. -/
def ownTarget (object : HandleObject) : ℕ × ForeignPtr :=
  (object.cell.ptr, object.cell.freeFn)

structure Inv (host : WireHost) (state : BalanceState n) : Prop where
  calls : ∀ thread frame, .call frame ∈ state.threads thread → frame.Ok host
  left : ∀ frame ∈ state.left, frame.Ok host ∧ frame.cleanups = []
  inFlight : ∀ (handle : ℕ) (object : HandleObject),
    state.handles[handle]? = some object →
      object.cell.inFlight = state.heldCount handle
  pending : ∀ (handle : ℕ) (object : HandleObject),
    state.handles[handle]? = some object →
      object.cell.state = .freePending → 0 < object.cell.inFlight
  frees : ∀ (handle : ℕ) (object : HandleObject),
    state.handles[handle]? = some object →
      object.cell.session = state.session →
        state.freedCount handle + state.releaseCount handle =
          if object.cell.state = .freed then 1 else 0
  targets : ∀ entry ∈ state.freed, ∃ object,
    state.handles[entry.1]? = some object ∧ entry.2 = ownTarget object
  releasing : ∀ thread handle target,
    .releasing handle target ∈ state.threads thread → ∃ object,
      state.handles[handle]? = some object ∧ target = ownTarget object
  fresh : ∀ handle, state.handles.length ≤ handle → state.heldCount handle = 0

variable {host : WireHost} {state : BalanceState n}

theorem initial_inv (host : WireHost) (n session : ℕ) :
    (initial n session).Inv host := by
  have hnone : ∀ (handle : ℕ) (object : HandleObject),
      (initial n session).handles[handle]? ≠ some object := by
    intro handle object hobject
    cases hobject
  constructor
  · intro thread frame hmem
    cases hmem
  · intro frame hmem
    cases hmem
  · exact fun handle object hobject => absurd hobject (hnone handle object)
  · exact fun handle object hobject => absurd hobject (hnone handle object)
  · exact fun handle object hobject => absurd hobject (hnone handle object)
  · intro entry hmem
    cases hmem
  · intro thread handle target hmem
    cases hmem
  · intro handle _
    simp [heldCount, total, initial]

/-- A thread's frames change, and no cell does. -/
theorem Inv.setFrames (hinv : state.Inv host) {thread : Fin n}
    {frames : List BalanceFrame}
    (hcalls : ∀ frame, .call frame ∈ frames → frame.Ok host)
    (hreleasing : ∀ handle target, .releasing handle target ∈ frames →
      .releasing handle target ∈ state.threads thread)
    (hheld : ∀ handle, stackCount (BalanceFrame.held handle) frames =
      stackCount (BalanceFrame.held handle) (state.threads thread))
    (hreleases : ∀ handle object, state.handles[handle]? = some object →
      object.cell.session = state.session →
        stackCount (BalanceFrame.releases handle) frames =
          stackCount (BalanceFrame.releases handle) (state.threads thread)) :
    (state.setFrames thread frames).Inv host := by
  have hheldCount : ∀ handle,
      (state.setFrames thread frames).heldCount handle = state.heldCount handle := by
    intro handle
    have htotal := state.total_setFrames thread frames (BalanceFrame.held handle)
    have hsame := hheld handle
    unfold heldCount
    omega
  constructor
  · intro other frame hmem
    rcases mem_setFrames hmem with hnew | hold
    · exact hcalls frame hnew
    · exact hinv.calls other frame hold
  · exact hinv.left
  · intro handle object hobject
    rw [hheldCount]
    exact hinv.inFlight handle object hobject
  · exact hinv.pending
  · intro handle object hobject hsession
    have htotal := state.total_setFrames thread frames
      (BalanceFrame.releases handle)
    have hsame := hreleases handle object hobject hsession
    have hfrees := hinv.frees handle object hobject hsession
    unfold releaseCount at hfrees ⊢
    change state.freedCount handle + _ = _
    omega
  · exact hinv.targets
  · intro other handle target hmem
    rcases mem_setFrames hmem with hnew | hold
    · exact hinv.releasing thread handle target (hreleasing handle target hnew)
    · exact hinv.releasing other handle target hold
  · intro handle hlength
    rw [hheldCount]
    exact hinv.fresh handle hlength

theorem getElem?_setCell {index handle : ℕ} {object : HandleObject}
    {cell : Cell ℕ ForeignPtr} (hobject : state.handles[index]? = some object)
    {other : HandleObject}
    (hother : (state.setCell index object cell).handles[handle]? = some other) :
    (handle = index ∧ other = { object with cell := cell }) ∨
      (handle ≠ index ∧ state.handles[handle]? = some other) := by
  have hlt := (List.getElem?_eq_some_iff.mp hobject).1
  by_cases heq : handle = index
  · subst heq
    rw [setCell, List.getElem?_set_self hlt, Option.some_inj] at hother
    exact .inl ⟨rfl, hother.symm⟩
  · rw [setCell, List.getElem?_set_ne (Ne.symm heq)] at hother
    exact .inr ⟨heq, hother⟩

/-- The objects of the handles are the same but for the slots of the cells
that change. -/
theorem target_setCell {index handle : ℕ} {object other : HandleObject}
    {cell : Cell ℕ ForeignPtr} (hobject : state.handles[index]? = some object)
    (hsame : object.cell.SameHandle cell)
    (hother : state.handles[handle]? = some other) :
    ∃ later, (state.setCell index object cell).handles[handle]? = some later ∧
      ownTarget later = ownTarget other := by
  have hlt := (List.getElem?_eq_some_iff.mp hobject).1
  by_cases heq : handle = index
  · subst heq
    rw [hobject, Option.some_inj] at hother
    subst hother
    refine ⟨{ object with cell := cell }, ?_, ?_⟩
    · rw [setCell, List.getElem?_set_self hlt]
    · simp only [ownTarget, hsame.ptr, hsame.freeFn]
  · refine ⟨other, ?_, rfl⟩
    rw [setCell, List.getElem?_set_ne (Ne.symm heq)]
    exact hother

/-- One cell changes, and a thread's frames with it. -/
theorem Inv.setCell (hinv : state.Inv host) {index : ℕ} {object : HandleObject}
    {cell : Cell ℕ ForeignPtr} {thread : Fin n} {frames : List BalanceFrame}
    (hobject : state.handles[index]? = some object)
    (hsame : object.cell.SameHandle cell)
    (hcalls : ∀ frame, .call frame ∈ frames → frame.Ok host)
    (hreleasing : ∀ handle target, .releasing handle target ∈ frames →
      .releasing handle target ∈ state.threads thread ∨
        (handle = index ∧ target = ownTarget object))
    (hheld : ∀ handle, handle ≠ index →
      stackCount (BalanceFrame.held handle) frames =
        stackCount (BalanceFrame.held handle) (state.threads thread))
    (hinFlight : cell.inFlight +
        stackCount (BalanceFrame.held index) (state.threads thread) =
      object.cell.inFlight + stackCount (BalanceFrame.held index) frames)
    (hpending : cell.state = .freePending → 0 < cell.inFlight)
    (hreleases : ∀ handle, handle ≠ index →
      stackCount (BalanceFrame.releases handle) frames =
        stackCount (BalanceFrame.releases handle) (state.threads thread))
    (hfrees : stackCount (BalanceFrame.releases index) frames +
        (if object.cell.state = .freed then 1 else 0) =
      stackCount (BalanceFrame.releases index) (state.threads thread) +
        if cell.state = .freed then 1 else 0) :
    ((state.setCell index object cell).setFrames thread frames).Inv host := by
  have htotal := fun weight => (state.setCell index object cell).total_setFrames
    thread frames weight
  have hother : ∀ handle, handle ≠ index →
      ((state.setCell index object cell).setFrames thread frames).heldCount
        handle = state.heldCount handle := by
    intro handle hne
    have hweight := htotal (BalanceFrame.held handle)
    have hsum := hheld handle hne
    change _ + stackCount (BalanceFrame.held handle) (state.threads thread) =
      state.heldCount handle + _ at hweight
    unfold heldCount at hweight ⊢
    omega
  have hlength : ((state.setCell index object cell).setFrames thread
      frames).handles.length = state.handles.length := List.length_set
  constructor
  · intro other frame hmem
    rcases mem_setFrames hmem with hnew | hold
    · exact hcalls frame hnew
    · exact hinv.calls other frame hold
  · exact hinv.left
  · intro handle later hlater
    rcases getElem?_setCell hobject hlater with ⟨rfl, rfl⟩ | ⟨hne, hbefore⟩
    · have hweight := htotal (BalanceFrame.held handle)
      have hbefore := hinv.inFlight handle object hobject
      change _ + stackCount (BalanceFrame.held handle) (state.threads thread) =
        state.heldCount handle + _ at hweight
      unfold heldCount at hweight hbefore ⊢
      simp only
      omega
    · rw [hother handle hne]
      exact hinv.inFlight handle later hbefore
  · intro handle later hlater
    rcases getElem?_setCell hobject hlater with ⟨rfl, rfl⟩ | ⟨hne, hbefore⟩
    · exact hpending
    · exact hinv.pending handle later hbefore
  · intro handle later hlater hsession
    have hweight := htotal (BalanceFrame.releases handle)
    change _ + stackCount (BalanceFrame.releases handle) (state.threads thread) =
      state.releaseCount handle + _ at hweight
    change state.freedCount handle + _ = _
    unfold releaseCount at hweight ⊢
    rcases getElem?_setCell hobject hlater with ⟨rfl, rfl⟩ | ⟨hne, hbefore⟩
    · have hbefore := hinv.frees handle object hobject
        (hsame.session.symm.trans hsession)
      unfold releaseCount at hbefore
      simp only
      omega
    · have hbefore' := hinv.frees handle later hbefore hsession
      have hsum := hreleases handle hne
      unfold releaseCount at hbefore'
      omega
  · intro entry hentry
    obtain ⟨other, hotherObject, htarget⟩ := hinv.targets entry hentry
    obtain ⟨later, hlater, hown⟩ := target_setCell hobject hsame hotherObject
    exact ⟨later, hlater, htarget.trans hown.symm⟩
  · intro other handle target hmem
    have hfound : ∃ found, state.handles[handle]? = some found ∧
        target = ownTarget found := by
      rcases mem_setFrames hmem with hnew | hold
      · rcases hreleasing handle target hnew with hold | ⟨rfl, htarget⟩
        · exact hinv.releasing thread handle target hold
        · exact ⟨object, hobject, htarget⟩
      · exact hinv.releasing other handle target hold
    obtain ⟨found, hfound, htarget⟩ := hfound
    obtain ⟨later, hlater, hown⟩ := target_setCell hobject hsame hfound
    exact ⟨later, hlater, htarget.trans hown.symm⟩
  · intro handle hle
    rw [hlength] at hle
    have hlt := (List.getElem?_eq_some_iff.mp hobject).1
    rw [hother handle (by omega)]
    exact hinv.fresh handle hle

/-! ## Cells and counts -/

theorem endCall_spec (cell : Cell ℕ ForeignPtr) :
    cell.endCall.2.inFlight = cell.inFlight - 1 ∧
      (cell.endCall.2.state = .freePending →
        cell.state = .freePending ∧ 0 < cell.endCall.2.inFlight) ∧
      cell.endCall.1.toList.length + (if cell.state = .freed then 1 else 0) =
        if cell.endCall.2.state = .freed then 1 else 0 := by
  unfold Cell.endCall
  by_cases hlast : cell.state = .freePending ∧ cell.inFlight - 1 = 0
  · simp [hlast.1, hlast.2]
  · simp only [if_neg hlast]
    refine ⟨trivial, fun hpending => ⟨hpending, ?_⟩, by simp⟩
    by_contra hzero
    exact hlast ⟨hpending, by omega⟩

theorem free_spec (cell : Cell ℕ ForeignPtr) :
    cell.free.2.2.inFlight = cell.inFlight ∧
      (cell.free.2.2.state = .freePending →
        cell.state = .freePending ∨ 0 < cell.inFlight) ∧
      cell.free.2.1.toList.length + (if cell.state = .freed then 1 else 0) =
        if cell.free.2.2.state = .freed then 1 else 0 := by
  unfold Cell.free
  cases hstate : cell.state with
  | freed => simp [hstate]
  | freePending => simp [hstate]
  | live =>
      by_cases hidle : cell.inFlight = 0
      · simp [hidle]
      · simp [hidle, Nat.pos_of_ne_zero hidle]

/-- The frames that `release` leaves. -/
def releasingFrames (handle : ℕ) (target : Option (ℕ × ForeignPtr))
    (rest : List BalanceFrame) : List BalanceFrame :=
  target.toList.map (.releasing handle) ++ rest

theorem release_eq (state : BalanceState n) (thread : Fin n) (handle : ℕ)
    (target : Option (ℕ × ForeignPtr)) (rest : List BalanceFrame) :
    state.release thread handle target rest =
      state.setFrames thread (releasingFrames handle target rest) := by
  cases target <;> rfl

@[simp] theorem stackCount_held_releasingFrames (other handle : ℕ)
    (target : Option (ℕ × ForeignPtr)) (rest : List BalanceFrame) :
    stackCount (BalanceFrame.held other) (releasingFrames handle target rest) =
      stackCount (BalanceFrame.held other) rest := by
  cases target with
  | none => rfl
  | some target =>
      simp [releasingFrames, BalanceFrame.held]

@[simp] theorem stackCount_releases_releasingFrames (other handle : ℕ)
    (target : Option (ℕ × ForeignPtr)) (rest : List BalanceFrame) :
    stackCount (BalanceFrame.releases other)
        (releasingFrames handle target rest) =
      (if handle = other then target.toList.length else 0) +
        stackCount (BalanceFrame.releases other) rest := by
  cases target with
  | none => simp [releasingFrames]
  | some target => simp [releasingFrames, BalanceFrame.releases]

theorem mem_releasingFrames {handle other : ℕ}
    {target : Option (ℕ × ForeignPtr)} {rest : List BalanceFrame}
    {target' : ℕ × ForeignPtr}
    (hmem : .releasing other target' ∈ releasingFrames handle target rest) :
    .releasing other target' ∈ rest ∨ (other = handle ∧ target = some target') := by
  cases target with
  | none => exact .inl hmem
  | some target =>
      rcases List.mem_cons.mp hmem with heq | hmem
      · cases heq
        exact .inr ⟨rfl, rfl⟩
      · exact .inl hmem

theorem call_mem_releasingFrames {handle : ℕ} {target : Option (ℕ × ForeignPtr)}
    {rest : List BalanceFrame} {frame : CallFrame}
    (hmem : .call frame ∈ releasingFrames handle target rest) :
    .call frame ∈ rest := by
  cases target with
  | none => exact hmem
  | some target =>
      rcases List.mem_cons.mp hmem with heq | hmem
      · cases heq
      · exact hmem

/-! ## Every step keeps it -/

section Steps

variable {thread : Fin n} {frame : CallFrame} {rest : List BalanceFrame}

theorem Inv.moved (hinv : state.Inv host) {frame' : CallFrame}
    (htop : state.threads thread = .call frame :: rest)
    (hheld : ∀ handle, frame'.cleanups.count (.endCall handle) =
      frame.cleanups.count (.endCall handle))
    (hok : frame.Ok host → frame'.Ok host) :
    (state.setFrames thread (.call frame' :: rest)).Inv host := by
  refine hinv.setFrames ?_ ?_ ?_ ?_
  · intro other hmem
    rcases List.mem_cons.mp hmem with heq | hmem
    · cases heq
      exact hok (hinv.calls thread frame (by rw [htop]; exact List.mem_cons_self))
    · exact hinv.calls thread other (by rw [htop]; exact List.mem_cons_of_mem _ hmem)
  · intro handle target hmem
    rcases List.mem_cons.mp hmem with heq | hmem
    · cases heq
    · rw [htop]
      exact List.mem_cons_of_mem _ hmem
  · intro handle
    rw [htop, stackCount_cons, stackCount_cons]
    simp only [BalanceFrame.held, hheld]
  · intro handle object _ _
    rw [htop]
    rfl

theorem Inv.begun (hinv : state.Inv host) {cls : Symbol} {sym handle : ℕ}
    {inner : CallForm} {object : HandleObject}
    (htop : state.threads thread = .call frame :: rest)
    (hphase : frame.phase = .eval (.gate cls sym inner))
    (harg : frame.arg sym = .handle handle)
    (hobject : state.handles[handle]? = some object) :
    ((state.setCell handle object
      { object.cell with inFlight := object.cell.inFlight + 1 }).setFrames thread
        (.call (frame.begin handle inner) :: rest)).Inv host := by
  have hcount : ∀ other,
      (frame.begin handle inner).cleanups.count (.endCall other) =
        frame.cleanups.count (.endCall other) + if handle = other then 1 else 0 := by
    intro other
    simp [CallFrame.begin, CallFrame.within, List.count_cons]
  refine hinv.setCell hobject ⟨rfl, rfl, rfl, rfl⟩ ?_ ?_ ?_ ?_ ?_ ?_ ?_
  · intro other hmem
    rcases List.mem_cons.mp hmem with heq | hmem
    · cases heq
      have hok := hinv.calls thread frame (by rw [htop]; exact List.mem_cons_self)
      exact hok.begin hphase harg
    · exact hinv.calls thread other (by rw [htop]; exact List.mem_cons_of_mem _ hmem)
  · intro other target hmem
    rcases List.mem_cons.mp hmem with heq | hmem
    · cases heq
    · rw [htop]
      exact .inl (List.mem_cons_of_mem _ hmem)
  · intro other hne
    rw [htop, stackCount_cons, stackCount_cons]
    simp only [BalanceFrame.held, hcount, if_neg (Ne.symm hne), Nat.add_zero]
  · rw [htop, stackCount_cons, stackCount_cons]
    simp only [BalanceFrame.held, hcount, if_true]
    omega
  · intro _
    exact Nat.succ_pos _
  · intro other _
    rw [htop]
    rfl
  · rw [htop]
    rfl

theorem Inv.ended (hinv : state.Inv host) {handle : ℕ} {cleanups : List Cleanup}
    {object : HandleObject} (htop : state.threads thread = .call frame :: rest)
    (hphase : frame.phase = .leaving)
    (hcleanups : frame.cleanups = .endCall handle :: cleanups)
    (hobject : state.handles[handle]? = some object) :
    ((state.setCell handle object object.cell.endCall.2).release thread handle
      object.cell.endCall.1
        (.call { frame with
          cleanups := cleanups
          ended := handle :: frame.ended } :: rest)).Inv host := by
  obtain ⟨hinFlight, hpending, hfreed⟩ := endCall_spec object.cell
  have hcount : ∀ other, frame.cleanups.count (.endCall other) =
      cleanups.count (.endCall other) + if handle = other then 1 else 0 := by
    intro other
    simp [hcleanups, List.count_cons]
  have hheld : 0 < object.cell.inFlight := by
    have hle := state.stackCount_le_total thread (BalanceFrame.held handle)
    rw [htop, stackCount_cons, BalanceFrame.held, hcount, if_pos rfl] at hle
    rw [hinv.inFlight handle object hobject, heldCount]
    omega
  rw [release_eq]
  refine hinv.setCell hobject object.cell.sameHandle_endCall ?_ ?_ ?_ ?_ ?_ ?_ ?_
  · intro other hmem
    rcases List.mem_cons.mp (call_mem_releasingFrames hmem) with heq | hmem
    · cases heq
      have hok := hinv.calls thread frame (by rw [htop]; exact List.mem_cons_self)
      refine ⟨fun other => ?_, ?_, hok.refusal, ?_, hok.accepted⟩
      · have hledger := hok.ledger other
        rw [hcount] at hledger
        simp only [List.count_cons, beq_iff_eq]
        omega
      · rintro (hother | ⟨form, hother⟩) <;>
          · change frame.phase = _ at hother
            rw [hphase] at hother
            cases hother
      · intro form hform
        change frame.phase = _ at hform
        rw [hphase] at hform
        cases hform
    · exact hinv.calls thread other (by rw [htop]; exact List.mem_cons_of_mem _ hmem)
  · intro other target hmem
    rcases mem_releasingFrames hmem with hmem | ⟨rfl, htarget⟩
    · rcases List.mem_cons.mp hmem with heq | hmem
      · cases heq
      · rw [htop]
        exact .inl (List.mem_cons_of_mem _ hmem)
    · exact .inr ⟨rfl, Cell.endCall_target htarget⟩
  · intro other hne
    rw [htop, stackCount_held_releasingFrames, stackCount_cons, stackCount_cons]
    simp only [BalanceFrame.held, hcount, if_neg (Ne.symm hne), Nat.add_zero]
  · rw [htop, stackCount_held_releasingFrames, stackCount_cons, stackCount_cons]
    simp only [BalanceFrame.held, hcount, if_true]
    omega
  · exact fun hstate => (hpending hstate).2
  · intro other hne
    rw [htop, stackCount_releases_releasingFrames, if_neg (Ne.symm hne), Nat.zero_add]
    rfl
  · rw [htop, stackCount_releases_releasingFrames, if_pos rfl]
    simp only [stackCount_cons, BalanceFrame.releases]
    omega

theorem Inv.freeing (hinv : state.Inv host) {handle : ℕ} {object : HandleObject}
    (hobject : state.handles[handle]? = some object) :
    ((state.setCell handle object object.cell.free.2.2).release thread handle
      object.cell.free.2.1 (state.threads thread)).Inv host := by
  obtain ⟨hinFlight, hpending, hfreed⟩ := free_spec object.cell
  rw [release_eq]
  refine hinv.setCell hobject object.cell.sameHandle_free ?_ ?_ ?_ ?_ ?_ ?_ ?_
  · exact fun other hmem =>
      hinv.calls thread other (call_mem_releasingFrames hmem)
  · intro other target hmem
    rcases mem_releasingFrames hmem with hmem | ⟨rfl, htarget⟩
    · exact .inl hmem
    · exact .inr ⟨rfl, Cell.free_target htarget⟩
  · exact fun other _ => stackCount_held_releasingFrames _ _ _ _
  · rw [stackCount_held_releasingFrames, hinFlight]
  · intro hstate
    rw [hinFlight]
    rcases hpending hstate with hbefore | hbusy
    · exact hinv.pending handle object hobject hbefore
    · exact hbusy
  · intro other hne
    rw [stackCount_releases_releasingFrames, if_neg (Ne.symm hne), Nat.zero_add]
  · rw [stackCount_releases_releasingFrames, if_pos rfl]
    omega

/-- A handle is made of what a call returned. -/
theorem Inv.append (hinv : state.Inv host) {object : HandleObject}
    (hlive : object.cell.state = .live) (hidle : object.cell.inFlight = 0) :
    ({ state with handles := state.handles ++ [object] } :
      BalanceState n).Inv host := by
  have hget : ∀ {handle : ℕ} {other : HandleObject},
      (state.handles ++ [object])[handle]? = some other →
        state.handles[handle]? = some other ∨
          (handle = state.handles.length ∧ other = object) := by
    intro handle other hother
    by_cases hlt : handle < state.handles.length
    · rw [List.getElem?_append_left hlt] at hother
      exact .inl hother
    · rw [List.getElem?_append_right (by omega)] at hother
      right
      have hzero : handle - state.handles.length = 0 := by
        have hbound := (List.getElem?_eq_some_iff.mp hother).1
        rw [List.length_singleton] at hbound
        omega
      rw [hzero] at hother
      exact ⟨by omega, (Option.some.inj hother).symm⟩
  have hold : ∀ {handle : ℕ} {other : HandleObject},
      state.handles[handle]? = some other →
        (state.handles ++ [object])[handle]? = some other := by
    intro handle other hother
    rw [List.getElem?_append_left (List.getElem?_eq_some_iff.mp hother).1]
    exact hother
  have hfreed : state.freedCount state.handles.length = 0 := by
    refine List.countP_eq_zero.mpr fun entry hentry heq => ?_
    obtain ⟨other, hother, -⟩ := hinv.targets entry hentry
    have hlt := (List.getElem?_eq_some_iff.mp hother).1
    rw [decide_eq_true_iff] at heq
    omega
  have hreleases : state.releaseCount state.handles.length = 0 := by
    unfold releaseCount total
    apply Finset.sum_eq_zero
    intro other _
    unfold stackCount
    apply List.sum_eq_zero
    intro count hcount
    obtain ⟨released, hmem, rfl⟩ := List.mem_map.mp hcount
    cases released with
    | call frame => rfl
    | inFree => rfl
    | releasing handle target =>
        obtain ⟨found, hfound, -⟩ := hinv.releasing other handle target hmem
        have hlt := (List.getElem?_eq_some_iff.mp hfound).1
        have hne : handle ≠ state.handles.length := by omega
        simp only [BalanceFrame.releases, if_neg hne]
  constructor
  · exact hinv.calls
  · exact hinv.left
  · intro handle other hother
    rcases hget hother with hbefore | ⟨rfl, rfl⟩
    · exact hinv.inFlight handle other hbefore
    · rw [hidle]
      exact (hinv.fresh _ (le_refl _)).symm
  · intro handle other hother hstate
    rcases hget hother with hbefore | ⟨rfl, rfl⟩
    · exact hinv.pending handle other hbefore hstate
    · rw [hlive] at hstate
      cases hstate
  · intro handle other hother hsession
    rcases hget hother with hbefore | ⟨rfl, rfl⟩
    · exact hinv.frees handle other hbefore hsession
    · rw [hlive]
      change state.freedCount _ + state.releaseCount _ = 0
      rw [hfreed, hreleases]
  · intro entry hentry
    obtain ⟨other, hother, htarget⟩ := hinv.targets entry hentry
    exact ⟨other, hold hother, htarget⟩
  · intro other handle target hmem
    obtain ⟨found, hfound, htarget⟩ := hinv.releasing other handle target hmem
    exact ⟨found, hold hfound, htarget⟩
  · intro handle hlength
    rw [List.length_append] at hlength
    exact hinv.fresh handle (by omega)

theorem Inv.shimCalled (hinv : state.Inv host) {handle : ℕ}
    {target : ℕ × ForeignPtr}
    (htop : state.threads thread = .releasing handle target :: rest) :
    ({ state.setFrames thread (.inFree :: rest) with
      freed := (handle, target) :: state.freed } : BalanceState n).Inv host := by
  have hold : ∀ {frame}, frame ∈ rest → frame ∈ state.threads thread := by
    intro frame hmem
    rw [htop]
    exact List.mem_cons_of_mem _ hmem
  have hheldCount : ∀ other,
      (state.setFrames thread (.inFree :: rest)).heldCount other =
        state.heldCount other := by
    intro other
    have htotal := state.total_setFrames thread (.inFree :: rest)
      (BalanceFrame.held other)
    rw [htop, stackCount_cons, stackCount_cons] at htotal
    simp only [BalanceFrame.held] at htotal
    unfold heldCount
    omega
  constructor
  · intro other frame hmem
    rcases mem_setFrames hmem with hnew | hbefore
    · rcases List.mem_cons.mp hnew with heq | hmem
      · cases heq
      · exact hinv.calls thread frame (hold hmem)
    · exact hinv.calls other frame hbefore
  · exact hinv.left
  · intro other object hobject
    exact (hinv.inFlight other object hobject).trans (hheldCount other).symm
  · exact hinv.pending
  · intro other object hobject hsession
    have hfrees := hinv.frees other object hobject hsession
    have htotal := state.total_setFrames thread (.inFree :: rest)
      (BalanceFrame.releases other)
    rw [htop, stackCount_cons, stackCount_cons] at htotal
    simp only [BalanceFrame.releases] at htotal
    change List.countP _ (_ :: _) +
      (state.setFrames thread (.inFree :: rest)).total _ = _
    rw [List.countP_cons]
    unfold releaseCount freedCount at hfrees
    simp only [decide_eq_true_eq]
    omega
  · intro entry hentry
    rcases List.mem_cons.mp hentry with rfl | hentry
    · exact hinv.releasing thread handle target
        (by rw [htop]; exact List.mem_cons_self)
    · exact hinv.targets entry hentry
  · intro other handle' target' hmem
    rcases mem_setFrames hmem with hnew | hbefore
    · rcases List.mem_cons.mp hnew with heq | hmem
      · cases heq
      · exact hinv.releasing thread handle' target' (hold hmem)
    · exact hinv.releasing other handle' target' hbefore
  · intro other hlength
    exact (hheldCount other).trans (hinv.fresh other hlength)

end Steps

theorem Inv.outcome (hinv : state.Inv host) {next : BalanceState n}
    (houtcome : Outcome host state next) : next.Inv host := by
  cases houtcome with
  | entered thread wrapper args =>
      refine hinv.setFrames ?_ ?_ (fun _ => ?_) (fun _ _ _ _ => ?_)
      · intro frame hmem
        rcases List.mem_cons.mp hmem with heq | hmem
        · cases heq
          exact .new host wrapper args
        · exact hinv.calls thread frame hmem
      · intro handle target hmem
        rcases List.mem_cons.mp hmem with heq | hmem
        · cases heq
        · exact hmem
      · simp [BalanceFrame.held, CallFrame.new]
      · simp [BalanceFrame.releases]
  | moved thread frame frame' rest htop hheld hok =>
      exact hinv.moved htop hheld hok
  | begun thread frame rest cls sym inner handle object htop hphase harg hobject =>
      exact hinv.begun htop hphase harg hobject
  | made thread frame rest object htop hlive hidle =>
      have hmoved : (state.setFrames thread
          (.call (frame.moveTo .leaving) :: rest)).Inv host :=
        hinv.moved htop (fun _ => rfl) fun hok => hok.moveTo (by simp) (by simp)
      exact hmoved.append hlive hidle
  | ended thread frame rest handle cleanups object htop hphase hcleanups hobject =>
      exact hinv.ended htop hphase hcleanups hobject
  | left thread frame rest htop hcleanups =>
      have hframe := hinv.calls thread frame (by rw [htop]; exact List.mem_cons_self)
      have hrest : (state.setFrames thread rest).Inv host := by
        refine hinv.setFrames (fun other hmem => ?_) (fun handle target hmem => ?_)
          (fun handle => ?_) (fun handle _ _ _ => ?_)
        · exact hinv.calls thread other
            (by rw [htop]; exact List.mem_cons_of_mem _ hmem)
        · rw [htop]
          exact List.mem_cons_of_mem _ hmem
        · simp [htop, BalanceFrame.held, hcleanups]
        · simp [htop, BalanceFrame.releases]
      refine ⟨hrest.calls, fun other hmem => ?_, hrest.inFlight, hrest.pending,
        hrest.frees, hrest.targets, hrest.releasing, hrest.fresh⟩
      rcases List.mem_cons.mp hmem with rfl | hmem
      · exact ⟨hframe, hcleanups⟩
      · exact hinv.left other hmem
  | freeing thread handle object hobject => exact hinv.freeing hobject
  | shimCalled thread handle target rest htop => exact hinv.shimCalled htop
  | shimSkipped thread handle target rest object htop hobject hsession =>
      refine hinv.setFrames (fun other hmem => ?_) (fun handle target hmem => ?_)
        (fun handle => ?_) (fun other found hfound hsame => ?_)
      · exact hinv.calls thread other
          (by rw [htop]; exact List.mem_cons_of_mem _ hmem)
      · rw [htop]
        exact List.mem_cons_of_mem _ hmem
      · simp [htop, BalanceFrame.held]
      · have hne : handle ≠ other := by
          rintro rfl
          rw [hobject, Option.some_inj] at hfound
          exact hsession (hfound ▸ hsame)
        simp [htop, BalanceFrame.releases, hne]
  | freeReturned thread rest htop =>
      refine hinv.setFrames (fun other hmem => ?_) (fun handle target hmem => ?_)
        (fun handle => ?_) (fun handle _ _ _ => ?_)
      · exact hinv.calls thread other
          (by rw [htop]; exact List.mem_cons_of_mem _ hmem)
      · rw [htop]
        exact List.mem_cons_of_mem _ hmem
      · simp [htop, BalanceFrame.held]
      · simp [htop, BalanceFrame.releases]

theorem reaches_inv {session : ℕ}
    (hreach : (balanceSystem host n).Reaches (.initial n session) state) :
    state.Inv host :=
  hreach.invariant (fun _ _ _ hinv hstep => hinv.outcome (step_outcome hstep))
    (initial_inv host n session)

/-- A call that is on its way out can always go on. -/
theorem Inv.cleanup_isSome (hinv : state.Inv host) {thread : Fin n}
    {frame : CallFrame} {rest : List BalanceFrame}
    (htop : state.threads thread = .call frame :: rest)
    (hphase : frame.phase = .leaving) :
    (state.step host (.cleanup thread)).isSome = true := by
  simp only [step, htop, hphase, if_true, runCleanup]
  split
  · rfl
  · rename_i handle cleanups hcleanups
    have hlt : handle < state.handles.length := by
      by_contra hlength
      have hzero := hinv.fresh handle (by omega)
      have hle := state.stackCount_le_total thread (BalanceFrame.held handle)
      have hone : 0 < frame.cleanups.count (.endCall handle) := by
        simp [hcleanups]
      rw [htop, stackCount_cons, BalanceFrame.held] at hle
      unfold heldCount at hzero
      omega
    rw [List.getElem?_eq_getElem hlt]
    rfl
  · rfl

/-- The last call on a cell that waits to be freed frees it. -/
theorem Inv.cleanup_frees (hinv : state.Inv host) {thread : Fin n}
    {frame : CallFrame} {rest : List BalanceFrame} {handle : ℕ}
    {cleanups : List Cleanup} {object : HandleObject}
    (htop : state.threads thread = .call frame :: rest)
    (hphase : frame.phase = .leaving)
    (hcleanups : frame.cleanups = .endCall handle :: cleanups)
    (hobject : state.handles[handle]? = some object)
    (hpending : object.cell.state = .freePending)
    (hlast : state.heldCount handle = 1) :
    ∃ next frames, state.step host (.cleanup thread) = some next ∧
      next.threads thread = .releasing handle (ownTarget object) :: frames := by
  have hinFlight : object.cell.inFlight - 1 = 0 := by
    rw [hinv.inFlight handle object hobject, hlast]
  simp only [step, htop, hphase, if_true, runCleanup, hcleanups, hobject,
    Cell.endCall, hpending, hinFlight, and_self, release]
  exact ⟨_, _, rfl, Function.update_self _ _ _⟩

end BalanceState

/-! ## Balance -/

/-- Whatever way a call is left, it has ended what it began; the cells count
the calls that hold them, a free that waits is made by the last of these and
no second time, and an export is called with accepted arguments only. -/
theorem wrapper_call_balance (host : WireHost) (n session : ℕ)
    (state : BalanceState n)
    (hreach : (balanceSystem host n).Reaches (.initial n session) state) :
    (∀ frame ∈ state.left, ∀ handle,
      frame.begun.count handle = frame.ended.count handle) ∧
    (∀ frame, (frame ∈ state.left ∨
        ∃ thread, .call frame ∈ state.threads thread) →
      (frame.refused = true → frame.called = false) ∧
      (frame.called = true → ∀ sym p, frame.params[sym]? = some p →
        frame.Accepts host sym p)) ∧
    (∀ (handle : ℕ) (object : HandleObject),
      state.handles[handle]? = some object →
        object.cell.inFlight = state.heldCount handle ∧
        (object.cell.state = .freePending → 0 < state.heldCount handle) ∧
        (object.cell.session = state.session →
          state.freedCount handle + state.releaseCount handle =
            if object.cell.state = .freed then 1 else 0)) ∧
    (∀ entry ∈ state.freed, ∃ object : HandleObject,
      state.handles[entry.1]? = some object ∧
        entry.2 = (object.cell.ptr, object.cell.freeFn)) ∧
    ∀ (thread : Fin n) (frame : CallFrame) (rest : List BalanceFrame),
      state.threads thread = .call frame :: rest → frame.phase = .leaving →
        (state.step host (.cleanup thread)).isSome = true ∧
        ∀ (handle : ℕ) (cleanups : List Cleanup) (object : HandleObject),
          frame.cleanups = .endCall handle :: cleanups →
          state.handles[handle]? = some object →
          object.cell.state = .freePending → state.heldCount handle = 1 →
            ∃ next frames, state.step host (.cleanup thread) = some next ∧
              next.threads thread =
                .releasing handle (object.cell.ptr, object.cell.freeFn) ::
                  frames := by
  have hinv := BalanceState.reaches_inv hreach
  refine ⟨?_, ?_, ?_, hinv.targets, ?_⟩
  · intro frame hmem handle
    obtain ⟨hok, hcleanups⟩ := hinv.left frame hmem
    have hledger := hok.ledger handle
    rw [hcleanups, List.count_nil, Nat.add_zero] at hledger
    exact hledger
  · intro frame hframe
    have hok : frame.Ok host := by
      rcases hframe with hmem | ⟨thread, hmem⟩
      · exact (hinv.left frame hmem).1
      · exact hinv.calls thread frame hmem
    exact ⟨hok.refusal, hok.accepted⟩
  · intro handle object hobject
    have hinFlight := hinv.inFlight handle object hobject
    exact ⟨hinFlight, fun hstate =>
      hinFlight ▸ hinv.pending handle object hobject hstate,
      hinv.frees handle object hobject⟩
  · intro thread frame rest htop hphase
    refine ⟨hinv.cleanup_isSome htop hphase, ?_⟩
    intro handle cleanups object hcleanups hobject hpending hlast
    exact hinv.cleanup_frees htop hphase hcleanups hobject hpending hlast

/-- The context of `demo`, first generation. -/
def balanceCtx : GenCtx where
  generation := 1
  session := 0
  lastErrorPtr := ⟨⟨0, 0⟩, "demo_rulisp_last_error"⟩
  deallocPtr := ⟨⟨0, 0⟩, "demo_rulisp_dealloc"⟩
  freeTable := [("Bag", ⟨⟨0, 0⟩, "demo_rulisp_bag_free"⟩)]
  errorConditions := []

/-- `fn new() -> Bag`. -/
def newWrapper : CrateWrapper where
  crate := "demo"
  ctx := balanceCtx
  fnPtr := ⟨⟨0, 0⟩, "demo_rulisp_bag_new"⟩
  form := ⟨[], .handle (.string "Bag") ⟨"DEMO", "BAG"⟩, "demo:make-bag"⟩

/-- `fn pair(first: &Bag, text: &str, second: &Bag)`. -/
def pairWrapper : CrateWrapper where
  crate := "demo"
  ctx := balanceCtx
  fnPtr := ⟨⟨0, 0⟩, "demo_rulisp_pair"⟩
  form :=
    ⟨[("FIRST", .handle (.string "Bag") ⟨"DEMO", "BAG"⟩), ("TEXT", .string),
        ("SECOND", .handle (.string "Bag") ⟨"DEMO", "BAG"⟩)],
      .unit, "demo:pair"⟩

/-- A bag is made; a call with a number for its string is refused with the
first cell begun; another call takes the bag twice, is freed under, fails and
is left by a handler. -/
def balanceRun : List (BalanceAction 1) :=
  let t := Fin.last 0
  [.enter t newWrapper [], .evaluate t, .evaluate t, .evaluate t,
    .foreignReturn t 0, .decode t (some 64), .cleanup t, .cleanup t,
    .enter t pairWrapper [.handle 0, .atom (.integer 5), .handle 0],
    .evaluate t, .evaluate t, .evaluate t, .unwind t, .cleanup t, .cleanup t,
    .enter t pairWrapper [.handle 0, .string [104, 105], .handle 0],
    .evaluate t, .evaluate t, .evaluate t, .evaluate t, .evaluate t,
    .free t 0, .foreignReturn t 1, .unwind t, .cleanup t, .cleanup t,
    .cleanup t, .foreignFree t, .freeReturn t, .cleanup t]

theorem wrapper_call_balance_run :
    ∃ state, (balanceSystem strictHost 1).run (.initial 1 0) balanceRun =
        some state ∧
      state.left.map (fun frame => (frame.begun, frame.refused, frame.called)) =
        [([0, 0], false, true), ([0], true, false), ([], false, true)] ∧
      state.freed.map (·.2.1) = [64] ∧
      ∀ frame ∈ state.left, ∀ handle,
        frame.begun.count handle = frame.ended.count handle := by
  have hrun : ((balanceSystem strictHost 1).run (.initial 1 0) balanceRun).map
      (fun state => (state.left.map fun frame =>
        (frame.begun, frame.refused, frame.called),
        state.freed.map (·.2.1))) =
      some ([([0, 0], false, true), ([0], true, false), ([], false, true)],
        [64]) := by
    decide +kernel
  obtain ⟨state, hstate, hrecord⟩ := Option.map_eq_some_iff.mp hrun
  obtain ⟨hleft, hfreed⟩ := Prod.mk.inj hrecord
  exact ⟨state, hstate, hleft, hfreed,
    (wrapper_call_balance strictHost 1 0 state ⟨balanceRun, hstate⟩).1⟩

end Rulisp
