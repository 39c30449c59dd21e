import Rulisp.FetchExchange

/-!
# What an exchange delivers

Over every run: values are returned only for a transfer that ended without
an error, and are all of it; every handle made is freed once, however the call
is left; and once the task has settled, the thread leaves its loops after a
bounded number of calls.
-/

namespace Rulisp

namespace Http

open TransitionSystem Fetch
open HeaderBlock (TextHost Designator)

/-! ## The copy of the parts -/

theorem assemble_append (parts : List Bytes) (before after : Bytes)
    (hroom : parts.flatten.length ≤ after.length) :
    assemble parts before.length (before ++ after) =
      before ++ parts.flatten ++ after.drop parts.flatten.length := by
  induction parts generalizing before after with
  | nil => simp [assemble]
  | cons p rest ih =>
      simp only [List.flatten_cons, List.length_append] at hroom
      have hreplace : replaceAt (before ++ after) p before.length =
          (before ++ p) ++ after.drop p.length := by
        unfold replaceAt
        rw [List.take_left, List.length_append, Nat.add_sub_cancel_left,
          List.take_of_length_le (by omega), List.drop_length_add_append]
      have hrest := ih (before ++ p) (after.drop p.length)
        (by rw [List.length_drop]; omega)
      rw [assemble, hreplace, ← List.length_append, hrest]
      simp only [List.flatten_cons, List.append_assoc, List.length_append,
        List.drop_drop]

theorem drained_eq {parts : List Bytes} {total : ℕ}
    (htotal : total = parts.reverse.flatten.length) :
    drained parts total = parts.reverse.flatten := by
  have hcopy := assemble_append parts.reverse [] (List.replicate total 0)
    (by rw [List.length_replicate, htotal])
  simpa [drained, htotal] using hcopy

/-! ## The invariant -/

/-- The calls of a place are made on a handle that is not freed. -/
def Phase.holds : Phase → Bool
  | .make | .signalled _ | .finished _ => false
  | _ => true

/-- The body has been drained by the time the thread is here. -/
def Phase.pastDrain : Phase → Bool
  | .errorKind | .errorMessage _ | .errorStatus _ _ => true
  | .status | .headers _ => true
  | _ => false

/-- The error has been looked at and there was none. -/
def Phase.clean : Phase → Bool
  | .status | .headers _ => true
  | _ => false

/-- The parts are those of the present request. -/
def Phase.collects : Phase → Bool
  | .read | .addPermit _ | .done => true
  | phase => phase.pastDrain

/-- A chunk read and not yet pushed. -/
def Phase.inHand : Phase → Bytes
  | .addPermit chunk => chunk
  | _ => []

def Phase.owes : Phase → ℕ
  | .addPermit _ => 1
  | _ => 0

def Phase.returns : Phase → Option Outcome
  | .free outcome => outcome
  | .finished outcome => some outcome
  | _ => none

/-- What values that were returned say of their request. -/
structure Delivered (text : TextHost) (call : Call) (arrived : Bytes)
    (r : Request) (body : Option Bytes) (status : ℕ) (headers : Headers) :
    Prop where
  done : r.st.done = true
  err : r.st.err = none
  body : body = if call.sink.isSome then none else some arrived
  statusRead : r.st.status = status
  success : call.expectSuccess = true → 200 ≤ status ∧ status ≤ 299
  headersRead : headers = lispDecodeHeaders text r.st.headers

/-- What holds of the request of an exchange. -/
structure Call.Tracks (call : Call) (arrived : Bytes) (r : Request) :
    Prop where
  body : r.BodyInv call.queueChunks
  whole : r.Whole arrived
  sink : r.sink = call.sink.isSome
  cap : r.maxBodyBytes = call.maxBytes

structure Exchange.Inv (text : TextHost) (call : Call) (arrived : Bytes)
    (x : Exchange) : Prop where
  encodes : x.req.isSome = true →
    ∃ block, lispEncodeHeaders text call.headers = .ok block
  tracks : ∀ r, x.req = some r → call.Tracks arrived r
  present : x.held = true → x.req.isSome = true
  holds : x.phase.holds = true → x.held = true
  idle : x.phase = .make → x.held = false
  left : ∀ outcome, x.phase = .finished outcome → x.held = false
  handles : x.made = x.freed + (if x.held then 1 else 0)
  owes : ∀ r, x.req = some r → r.returning = x.phase.owes
  parts : x.phase.collects = true → call.sink = none → ∀ r, x.req = some r →
    x.parts.reverse.flatten ++ x.phase.inHand = readBytes r.log ∧
      x.total = x.parts.reverse.flatten.length
  done : x.phase.pastDrain = true → ∀ r, x.req = some r →
    r.st.done = true
  clean : x.phase.clean = true → ∀ r, x.req = some r → r.st.err = none
  head : ∀ status, x.phase = .headers status → ∀ r, x.req = some r →
    r.st.status = status
  delivered : ∀ body status headers,
    x.phase.returns = some (.values body status headers) →
      ∃ r, x.req = some r ∧ Delivered text call arrived r body status headers

/-- What the run has handed to the task of the present request. -/
def record (arrived : Bytes) : ExchangeAction → Bytes
  | .make (.ok _) => []
  | .task action => arrived ++ action.arrival
  | _ => arrived

theorem Exchange.start_inv (text : TextHost) (call : Call) :
    Exchange.start.Inv text call [] := by
  constructor <;> simp [Exchange.start, Phase.holds, Phase.collects,
    Phase.pastDrain, Phase.clean, Phase.returns]

section Requests

variable {call : Call} {arrived : Bytes} {r r' : Request}

theorem Call.Tracks.step (htracks : call.Tracks arrived r)
    {action : RequestAction} (hstep : r.step action = some r')
    (hsink : r'.sink = r.sink) (hcap : r'.maxBodyBytes = r.maxBodyBytes) :
    call.Tracks (arrived ++ action.arrival) r' where
  body := htracks.body.step hstep
  whole := htracks.whole.step htracks.body.settled hstep
  sink := hsink.trans htracks.sink
  cap := hcap.trans htracks.cap

theorem Call.spawned_tracks (call : Call) (id : ℕ) :
    call.Tracks [] (call.spawned id) := by
  have hstart : call.Tracks []
      (Request.start call.queueChunks call.sink.isSome call.maxBytes) :=
    ⟨Request.start_bodyInv _ _ _, Request.start_whole _ _ _, rfl, rfl⟩
  have hidentified :=
    @Call.Tracks.step _ _ _ _ hstart (.identify id) rfl rfl rfl
  exact @Call.Tracks.step _ _ _ _ hidentified .spawn rfl rfl rfl

/-- A settled request without an error is finished, and nothing of it is
lost. -/
theorem Call.Tracks.finished (htracks : call.Tracks arrived r)
    (hsettled : r.st.settled = true) (herr : r.st.err = none) :
    r.phase = .finished ∧ r.lost = false := by
  have hphase : r.phase.settled = true :=
    htracks.body.settled.symm.trans hsettled
  have hfinished : r.phase = .finished := by
    by_contra hrunning
    have hsome := htracks.whole.failed hphase hrunning
    rw [herr] at hsome
    cases hsome
  refine ⟨hfinished, ?_⟩
  unfold Request.lost
  rw [hfinished, herr]
  rfl

theorem Delivered.congr {text : TextHost} {body : Option Bytes} {status : ℕ}
    {headers : Headers}
    (hdelivered : Delivered text call arrived r body status headers)
    (hst : r'.st = r.st) :
    Delivered text call arrived r' body status headers where
  done := hst ▸ hdelivered.done
  err := hst ▸ hdelivered.err
  body := hdelivered.body
  statusRead := hst ▸ hdelivered.statusRead
  success := hdelivered.success
  headersRead := hst ▸ hdelivered.headersRead

end Requests

/-! ## Steps -/

section Steps

variable {text : TextHost} {call : Call} {arrived : Bytes}
variable {x next : Exchange}

/-- A step of the task: once it has settled, the thread sees no change. -/
theorem Exchange.Inv.task (hinv : x.Inv text call arrived)
    {action : RequestAction} (hstep : x.task action = some next) :
    next.Inv text call (arrived ++ action.arrival) := by
  unfold Exchange.task at hstep
  split at hstep
  · cases hstep
  rename_i r hreq
  split at hstep
  · cases hstep
  rename_i hreader
  have hreader' : action.ofReader = false := by simpa using hreader
  obtain ⟨r', hmoves, rfl⟩ := Option.map_eq_some_iff.mp hstep
  obtain ⟨hsink, hcap, hreads⟩ := Request.step_config hmoves
  have htracks := hinv.tracks r hreq
  have hfrozen : r.st.settled = true →
      r'.st = r.st ∧ action.arrival = [] := by
    intro hsettled
    obtain ⟨hst, -, -, hnone⟩ := Request.settled_frozen
      (htracks.body.settled.symm.trans hsettled) htracks.body.settled
      hreader' hmoves
    exact ⟨hst, hnone⟩
  have hdrained : x.phase.pastDrain = true →
      r'.st = r.st ∧ r.st.done = true := by
    intro hpast
    have hdone := hinv.done hpast r hreq
    exact ⟨(hfrozen (State.done_iff.mp hdone).1).1, hdone⟩
  constructor
  · exact fun _ => hinv.encodes (by rw [hreq]; rfl)
  · rintro _ ⟨⟩
    exact htracks.step hmoves hsink hcap
  · exact fun _ => rfl
  · exact hinv.holds
  · exact hinv.idle
  · exact hinv.left
  · exact hinv.handles
  · rintro _ ⟨⟩
    rw [(hreads hreader').1]
    exact hinv.owes r hreq
  · rintro hcollects hsink' _ ⟨⟩
    rw [(hreads hreader').2]
    exact hinv.parts hcollects hsink' r hreq
  · rintro hpast _ ⟨⟩
    obtain ⟨hst, hdone⟩ := hdrained hpast
    rw [hst, hdone]
  · rintro hclean _ ⟨⟩
    have hpast : x.phase.pastDrain = true := by
      revert hclean
      cases x.phase <;> simp [Phase.clean, Phase.pastDrain]
    rw [(hdrained hpast).1]
    exact hinv.clean hclean r hreq
  · rintro status hheaders _ ⟨⟩
    rw [(hdrained (by rw [hheaders]; rfl)).1]
    exact hinv.head status hheaders r hreq
  · intro body status headers hreturns
    obtain ⟨r₀, hreq₀, hdelivered⟩ :=
      hinv.delivered body status headers hreturns
    obtain rfl : r₀ = r := Option.some.inj (hreq₀.symm.trans hreq)
    obtain ⟨hst, hnone⟩ := hfrozen (State.done_iff.mp hdelivered.done).1
    refine ⟨r', rfl, ?_⟩
    rw [hnone, List.append_nil]
    exact hdelivered.congr hst

/-- The thread goes on to another call and changes nothing else. -/
theorem Exchange.Inv.goTo (hinv : x.Inv text call arrived) {phase : Phase}
    (hholds : phase.holds = true → x.held = true)
    (hidle : phase = .make → x.held = false)
    (hover : ∀ outcome, phase = .finished outcome → x.held = false)
    (howes : phase.owes = x.phase.owes)
    (hparts : phase.collects = true →
      x.phase.collects = true ∧ phase.inHand = x.phase.inHand)
    (hdrained : phase.pastDrain = true → ∀ r, x.req = some r →
      r.st.done = true)
    (hclean : phase.clean = true → ∀ r, x.req = some r → r.st.err = none)
    (hhead : ∀ status, phase = .headers status → ∀ r, x.req = some r →
      r.st.status = status)
    (hdelivered : ∀ body status headers,
      phase.returns = some (.values body status headers) →
        ∃ r, x.req = some r ∧
          Delivered text call arrived r body status headers) :
    ({ x with phase := phase } : Exchange).Inv text call arrived where
  encodes := hinv.encodes
  tracks := hinv.tracks
  present := hinv.present
  holds := hholds
  idle := hidle
  left := hover
  handles := hinv.handles
  owes r hreq := (hinv.owes r hreq).trans howes.symm
  parts hcollects hsink r hreq := by
    obtain ⟨hbefore, hhand⟩ := hparts hcollects
    simp only [hhand]
    exact hinv.parts hbefore hsink r hreq
  done := hdrained
  clean := hclean
  head := hhead
  delivered := hdelivered

/-- The thread signals a condition, from a call that owes no permit. -/
theorem Exchange.Inv.signal (hinv : x.Inv text call arrived)
    (howes : x.phase.owes = 0) (c : Condition) :
    ({ x with phase := .signalled c } : Exchange).Inv text call arrived := by
  apply hinv.goTo
  case howes => exact howes.symm
  all_goals simp [Phase.holds, Phase.collects, Phase.pastDrain, Phase.clean,
    Phase.returns]

/-- The stack unwinds, and no values are returned. -/
theorem Exchange.Inv.unwind (hinv : x.Inv text call arrived)
    (howes : x.phase.owes = 0) {outcome : Option Outcome}
    (hvalues : ∀ body status headers,
      outcome ≠ some (.values body status headers)) :
    (x.unwind outcome).Inv text call arrived := by
  cases hheld : x.held with
  | true =>
      have hfree : x.unwind outcome = { x with phase := .free outcome } := by
        simp [Exchange.unwind, hheld]
      rw [hfree]
      apply hinv.goTo
      case howes => exact howes.symm
      all_goals simp [Phase.holds, Phase.collects, Phase.pastDrain,
        Phase.clean, Phase.returns, hheld, hvalues]
  | false =>
      have hleaves : x.unwind outcome =
          { x with phase := .leaves outcome } := by
        simp [Exchange.unwind, hheld]
      rw [hleaves]
      cases outcome <;> apply hinv.goTo
      case none.howes => exact howes.symm
      case some.howes => exact howes.symm
      case some.hdelivered =>
        intro body status headers hreturns
        exact absurd hreturns (hvalues body status headers)
      all_goals simp [Phase.leaves, Phase.holds, Phase.collects,
        Phase.pastDrain, Phase.clean, Phase.returns, hheld]

theorem Exchange.Inv.restart (hinv : x.Inv text call arrived) {retry : Bool}
    (hstep : x.restart retry = some next) : next.Inv text call arrived := by
  unfold Exchange.restart at hstep
  split at hstep
  · rename_i c hphase
    cases hstep
    apply hinv.unwind
    · rw [hphase]
      rfl
    · cases retry <;> simp
  · cases hstep

theorem Exchange.Inv.interrupt (hinv : x.Inv text call arrived)
    (hstep : x.interrupt = some next) : next.Inv text call arrived := by
  unfold Exchange.interrupt at hstep
  split at hstep
  · cases hstep
  · cases hstep
  · cases hstep
  · rename_i hforeign _ _
    cases hstep
    have howes : x.phase.owes = 0 := by
      revert hforeign
      cases x.phase <;> simp [Phase.owes]
    exact @Exchange.Inv.unwind _ _ _ _ hinv howes (some .interrupted) (by simp)

/-- Headers that do not encode make no request. -/
theorem Exchange.Inv.unencoded (hinv : x.Inv text call arrived)
    {signal : HeaderBlock.Signal}
    (hsignal : lispEncodeHeaders text call.headers = .error signal) :
    x.Inv text call [] := by
  have hnone : x.req = none := by
    by_contra hsome
    obtain ⟨block, hblock⟩ :=
      hinv.encodes (Option.isSome_iff_ne_none.mpr hsome)
    rw [hsignal] at hblock
    cases hblock
  refine { hinv with tracks := ?_, delivered := ?_ }
  · intro r hreq
    rw [hnone] at hreq
    cases hreq
  · intro body status headers hreturns
    obtain ⟨r, hreq, -⟩ := hinv.delivered body status headers hreturns
    rw [hnone] at hreq
    cases hreq

theorem Exchange.Inv.make (hinv : x.Inv text call arrived)
    {answer : Except HttpError ℕ}
    (hstep : x.make text call answer = some next) :
    next.Inv text call (record arrived (.make answer)) := by
  unfold Exchange.make at hstep
  split at hstep
  · rename_i hphase
    have howes : x.phase.owes = 0 := by
      rw [hphase]
      rfl
    have hidle := hinv.idle hphase
    cases hblock : lispEncodeHeaders text call.headers with
    | error signal =>
      have hunread : x.Inv text call (record arrived (.make answer)) := by
        cases answer with
        | error err => exact hinv
        | ok id => exact hinv.unencoded hblock
      rw [hblock] at hstep
      cases signal with
      | httpError kind detail =>
          cases hstep
          exact hunread.signal howes _
      | encodingError =>
          cases hstep
          exact hunread.signal howes _
    | ok block =>
    rw [hblock] at hstep
    cases answer with
    | error err =>
      cases hstep
      exact hinv.signal howes _
    | ok id =>
      cases hstep
      have hcount := hinv.handles
      constructor
      · exact fun _ => ⟨block, hblock⟩
      · rintro _ ⟨⟩
        exact call.spawned_tracks id
      · exact fun _ => rfl
      · exact fun _ => rfl
      · unfold Call.loop
        split_ifs <;> simp
      · unfold Call.loop
        split_ifs <;> simp
      · simp only [hidle, Bool.false_eq_true, if_false, if_true] at hcount ⊢
        omega
      · rintro _ ⟨⟩
        unfold Call.loop
        split_ifs <;> rfl
      · rintro - hsink _ ⟨⟩
        simp [Call.loop, hsink, Phase.inHand, Call.spawned, Request.start,
          readBytes]
      · unfold Call.loop
        split_ifs <;> simp [Phase.pastDrain]
      · unfold Call.loop
        split_ifs <;> simp [Phase.clean]
      · unfold Call.loop
        split_ifs <;> simp
      · unfold Call.loop
        split_ifs <;> simp [Phase.returns]
  · cases hstep

/-- What one locked read of the reader does to its request. -/
theorem Exchange.Inv.reads (hinv : x.Inv text call arrived) {r r' : Request}
    (hreq : x.req = some r) (hphase : x.phase = .read) {waited : Bool}
    (hread : r.step (.read call.readSize waited) = some r') :
    call.Tracks arrived r' ∧
      r'.returning =
        (if (r.st.read (readLimit call.readSize)).2.1 then 1 else 0) ∧
      readBytes r'.log = readBytes r.log ++
        BodyEvent.bytesRead (.read (r.st.read (readLimit call.readSize)).1) := by
  have hreturning := hinv.owes r hreq
  rw [hphase] at hreturning
  obtain ⟨hsink, hcap, -⟩ := Request.step_config hread
  have htracks := (hinv.tracks r hreq).step hread hsink hcap
  simp only [RequestAction.arrival, List.append_nil] at htracks
  refine ⟨htracks, ?_⟩
  simp only [Request.step, Request.read] at hread
  split at hread
  · cases hread
    simp [hreturning, Phase.owes]
  · cases hread

/-- The chunk in hand is pushed. -/
theorem Exchange.Inv.push (hinv : x.Inv text call arrived)
    (hheld : x.held = true) {r r' : Request} (hreq : x.req = some r)
    (htracks : call.Tracks arrived r') (howes : r'.returning = 0)
    {chunk : Bytes}
    (hparts : call.sink = none →
      x.parts.reverse.flatten ++ chunk = readBytes r'.log ∧
        x.total = x.parts.reverse.flatten.length) :
    ({ x with req := some r' } : Exchange).push call chunk |>.Inv text call
      arrived := by
  have hencodes := hinv.encodes (by rw [hreq]; rfl)
  cases hsink : call.sink with
  | some path =>
      have hpush : ({ x with req := some r' } : Exchange).push call chunk =
          { x with req := some r', phase := .done } := by
        simp [Exchange.push, Call.loop, hsink]
      rw [hpush]
      constructor
      case encodes => exact fun _ => hencodes
      case tracks =>
        rintro _ ⟨⟩
        exact htracks
      case handles => exact hinv.handles
      case owes =>
        rintro _ ⟨⟩
        exact howes
      all_goals simp [hheld, hsink, Phase.pastDrain, Phase.clean,
        Phase.returns]
  | none =>
      obtain ⟨hbytes, htotal⟩ := hparts hsink
      have hpush : ({ x with req := some r' } : Exchange).push call chunk =
          { x with
            req := some r'
            phase := .read
            parts := chunk :: x.parts
            total := x.total + chunk.length } := by
        simp [Exchange.push, Call.loop, hsink]
      rw [hpush]
      constructor
      case encodes => exact fun _ => hencodes
      case tracks =>
        rintro _ ⟨⟩
        exact htracks
      case handles => exact hinv.handles
      case owes =>
        rintro _ ⟨⟩
        exact howes
      case parts =>
        rintro - - _ ⟨⟩
        simp [Phase.inHand, ← hbytes, htotal]
      all_goals simp [hheld, Phase.pastDrain, Phase.clean, Phase.returns]

/-- The reader's request has moved, and the thread has been handed nothing
to push. -/
theorem Exchange.Inv.afterRead (hinv : x.Inv text call arrived)
    (hheld : x.held = true) {r' : Request} (htracks : call.Tracks arrived r')
    (hencodes : ∃ block, lispEncodeHeaders text call.headers = .ok block)
    {phase : Phase} (hholds : phase.holds = true)
    (hpast : phase.pastDrain = false) (hreturns : phase.returns = none)
    (howes : r'.returning = phase.owes)
    (hparts : phase.collects = true → call.sink = none →
      x.parts.reverse.flatten ++ phase.inHand = readBytes r'.log ∧
        x.total = x.parts.reverse.flatten.length) :
    ({ x with req := some r', phase := phase } : Exchange).Inv text call
      arrived := by
  have hclean : phase.clean = false := by
    revert hpast
    cases phase <;> simp [Phase.pastDrain, Phase.clean]
  constructor
  case encodes => exact fun _ => hencodes
  case tracks =>
    rintro _ ⟨⟩
    exact htracks
  case present => exact fun _ => rfl
  case holds => exact fun _ => hheld
  case idle =>
    rintro rfl
    cases hholds
  case left =>
    rintro outcome rfl
    cases hholds
  case handles => exact hinv.handles
  case owes =>
    rintro _ ⟨⟩
    exact howes
  case parts =>
    rintro hcollects hsink _ ⟨⟩
    exact hparts hcollects hsink
  case head =>
    rintro status rfl
    cases hpast
  all_goals simp [hpast, hclean, hreturns]

theorem Exchange.Inv.read (hinv : x.Inv text call arrived) {r : Request}
    (hreq : x.req = some r) (hphase : x.phase = .read) {waited : Bool}
    (hstep : x.read call r waited = some next) :
    next.Inv text call arrived := by
  unfold Exchange.read at hstep
  split at hstep
  · cases hstep
  rename_i r' hread
  obtain ⟨htracks, howes, hbytes⟩ := hinv.reads hreq hphase hread
  have hheld := hinv.holds (by rw [hphase]; rfl)
  have hencodes := hinv.encodes (by rw [hreq]; rfl)
  have hbefore : call.sink = none →
      x.parts.reverse.flatten = readBytes r.log ∧
        x.total = x.parts.reverse.flatten.length := by
    intro hsink
    simpa [hphase, Phase.inHand] using
      hinv.parts (by rw [hphase]; rfl) hsink r hreq
  split at hstep
  · rename_i chunk _ hresult
    cases hstep
    rw [hresult] at howes hbytes
    refine hinv.afterRead hheld htracks hencodes rfl rfl rfl howes ?_
    intro _ hsink
    obtain ⟨hparts, htotal⟩ := hbefore hsink
    exact ⟨by rw [hparts, hbytes]; rfl, htotal⟩
  · rename_i chunk _ hresult
    cases hstep
    rw [hresult] at howes hbytes
    apply hinv.push hheld hreq htracks howes
    intro hsink
    obtain ⟨hparts, htotal⟩ := hbefore hsink
    exact ⟨by rw [hparts, hbytes]; rfl, htotal⟩
  all_goals
    rename_i hresult
    cases hstep
    rw [(r.st.read_none _ (by simp [hresult])).1] at howes
    rw [hresult] at hbytes
    refine hinv.afterRead hheld htracks hencodes rfl rfl rfl howes ?_
    intro hcollects hsink
    obtain ⟨hparts, htotal⟩ := hbefore hsink
    refine ⟨?_, htotal⟩
    rw [hparts, hbytes]
    rfl

/-- `REQ-READ` returns its permit, and the chunk is pushed. -/
theorem Exchange.Inv.returned (hinv : x.Inv text call arrived)
    (hheld : x.held = true) {chunk : Bytes}
    (hphase : x.phase = .addPermit chunk) {r r' : Request}
    (hreq : x.req = some r) (hreturn : r.step .returnPermit = some r') :
    (({ x with req := some r' } : Exchange).push call chunk).Inv text call
      arrived := by
  have hreturning := hinv.owes r hreq
  rw [hphase] at hreturning
  obtain ⟨hsink, hcap, -⟩ := Request.step_config hreturn
  have htracks := (hinv.tracks r hreq).step hreturn hsink hcap
  simp only [RequestAction.arrival, List.append_nil] at htracks
  simp only [Request.step, Request.returnPermit] at hreturn
  split at hreturn
  · cases hreturn
  · cases hreturn
    apply hinv.push hheld hreq htracks
    · simp [hreturning, Phase.owes]
    · intro hsink
      simpa [hphase, Phase.inHand] using
        hinv.parts (by rw [hphase]; rfl) hsink r hreq

/-- The values of a transfer that ended without an error are all of it. -/
theorem Exchange.Inv.deliver (hinv : x.Inv text call arrived) {status : ℕ}
    (hphase : x.phase = .headers status) {r : Request}
    (hreq : x.req = some r)
    (hsuccess : ¬(call.expectSuccess = true ∧
      ¬(200 ≤ status ∧ status ≤ 299))) :
    ({ x with
      phase := .free (some (.values
        (if call.sink.isSome then none
          else some (drained x.parts x.total))
        status (lispDecodeHeaders text r.st.headers))) } : Exchange).Inv text
      call arrived := by
  have hheld := hinv.holds (by rw [hphase]; rfl)
  have hdone := hinv.done (by rw [hphase]; rfl) r hreq
  have herr := hinv.clean (by rw [hphase]; rfl) r hreq
  have hstatus := hinv.head status hphase r hreq
  have htracks := hinv.tracks r hreq
  obtain ⟨hsettled, hchunks⟩ := State.done_iff.mp hdone
  obtain ⟨hfinished, hkept⟩ := htracks.finished hsettled herr
  have hbody : call.sink = none → drained x.parts x.total = arrived := by
    intro hsink
    obtain ⟨hparts, htotal⟩ :=
      hinv.parts (by rw [hphase]; rfl) hsink r hreq
    rw [hphase] at hparts
    have hsink' : r.sink = false := by rw [htracks.sink, hsink]; rfl
    calc
      drained x.parts x.total = x.parts.reverse.flatten := drained_eq htotal
      _ = readBytes r.log := by simpa [Phase.inHand] using hparts
      _ = queuedBytes r.log := by
        simpa [hchunks] using htracks.body.bytes
      _ = arrived := by
        simpa [hfinished, TaskPhase.pending] using
          htracks.whole.bytes hkept hsink'
  apply hinv.goTo
  case hdelivered =>
    intro body status' headers hreturns
    simp only [Phase.returns, Option.some.injEq, Outcome.values.injEq]
      at hreturns
    obtain ⟨rfl, rfl, rfl⟩ := hreturns
    refine ⟨r, hreq, hdone, herr, ?_, hstatus, by tauto, rfl⟩
    cases hsink : call.sink with
    | none => simp [hbody hsink]
    | some path => rfl
  all_goals simp [Phase.holds, hheld, Phase.owes, hphase, Phase.collects,
    Phase.pastDrain, Phase.clean]

theorem Exchange.Inv.free (hinv : x.Inv text call arrived)
    {outcome : Option Outcome} (hphase : x.phase = .free outcome)
    {r : Request} (hreq : x.req = some r) :
    ({ x with
      req := some { r with cancelled := true }
      held := false
      freed := x.freed + 1
      phase := .leaves outcome } : Exchange).Inv text call arrived := by
  have hheld := hinv.holds (by rw [hphase]; rfl)
  have htracks :=
    @Call.Tracks.step _ _ _ _ (hinv.tracks r hreq) .cancel rfl rfl rfl
  simp only [RequestAction.arrival, List.append_nil] at htracks
  have hreturning := hinv.owes r hreq
  have hhandles := hinv.handles
  constructor
  case encodes => exact fun _ => hinv.encodes (by rw [hreq]; rfl)
  case tracks =>
    rintro _ ⟨⟩
    exact htracks
  case handles =>
    simp only [hheld, if_true, Bool.false_eq_true, if_false] at hhandles ⊢
    omega
  case owes =>
    rintro _ ⟨⟩
    rw [hphase] at hreturning
    cases outcome <;> exact hreturning
  case delivered =>
    intro body status headers hreturns
    have hbefore : x.phase.returns = some (.values body status headers) := by
      rw [hphase]
      cases outcome with
      | none => cases hreturns
      | some outcome => exact hreturns
    obtain ⟨r₀, hreq₀, hdelivered⟩ :=
      hinv.delivered body status headers hbefore
    obtain rfl : r₀ = r := Option.some.inj (hreq₀.symm.trans hreq)
    exact ⟨_, rfl, hdelivered.congr rfl⟩
  all_goals cases outcome <;> simp [Phase.leaves, Phase.holds,
    Phase.collects, Phase.pastDrain, Phase.clean]

/-- The next call of the thread. -/
theorem Exchange.Inv.advance (hinv : x.Inv text call arrived) {waited : Bool}
    (hstep : x.advance text call waited = some next) :
    next.Inv text call arrived := by
  unfold Exchange.advance at hstep
  split at hstep
  · rename_i r hphase hreq
    exact hinv.read hreq hphase hstep
  · rename_i chunk r hphase hreq
    obtain ⟨r', hreturn, rfl⟩ := Option.map_eq_some_iff.mp hstep
    have hheld := hinv.holds (by rw [hphase]; rfl)
    exact hinv.returned hheld hphase hreq hreturn
  · rename_i r hphase hreq
    cases hstep
    have hheld := hinv.holds (by rw [hphase]; rfl)
    by_cases hdone : r.st.done = true
    · simp only [if_pos hdone]
      apply hinv.goTo <;> simp [Phase.holds, hheld, Phase.owes, hphase,
        Phase.collects, Phase.pastDrain, Phase.inHand, Phase.clean,
        Phase.returns, hreq, hdone]
    · simp only [if_neg hdone]
      apply hinv.goTo <;> simp [Phase.holds, hheld, Phase.owes, hphase,
        Phase.collects, Phase.pastDrain, Phase.inHand, Phase.clean,
        Phase.returns]
  · rename_i err r hphase hreq
    cases hstep
    exact hinv.signal (by rw [hphase]; rfl) _
  · rename_i r hphase hreq
    cases hstep
    have hheld := hinv.holds (by rw [hphase]; rfl)
    have hdone := hinv.done (by rw [hphase]; rfl) r hreq
    cases herr : r.st.err <;>
      apply hinv.goTo <;> simp [Phase.holds, hheld, Phase.owes, hphase,
        Phase.collects, Phase.pastDrain, Phase.inHand, Phase.clean,
        Phase.returns, hreq, hdone, herr]
  · rename_i kind r hphase hreq
    cases hstep
    have hheld := hinv.holds (by rw [hphase]; rfl)
    have hdone := hinv.done (by rw [hphase]; rfl) r hreq
    apply hinv.goTo <;> simp [Phase.holds, hheld, Phase.owes, hphase,
        Phase.collects, Phase.pastDrain, Phase.inHand, Phase.clean,
        Phase.returns, hreq, hdone]
  · rename_i kind detail r hphase hreq
    cases hstep
    exact hinv.signal (by rw [hphase]; rfl) _
  · rename_i r hphase hreq
    cases hstep
    have hheld := hinv.holds (by rw [hphase]; rfl)
    have hdone := hinv.done (by rw [hphase]; rfl) r hreq
    have herr := hinv.clean (by rw [hphase]; rfl) r hreq
    apply hinv.goTo <;> simp [Phase.holds, hheld, Phase.owes, hphase,
        Phase.collects, Phase.pastDrain, Phase.inHand, Phase.clean,
        Phase.returns, hreq, hdone, herr]
  · rename_i status r hphase hreq
    split at hstep
    · cases hstep
      exact hinv.signal (by rw [hphase]; rfl) _
    · rename_i hsuccess
      cases hstep
      exact hinv.deliver hphase hreq hsuccess
  · rename_i outcome r hphase hreq
    cases hstep
    exact hinv.free hphase hreq
  · cases hstep

/-- One step keeps the invariant. -/
theorem Exchange.Inv.step (hinv : x.Inv text call arrived)
    {action : ExchangeAction}
    (hstep : (exchangeSystem text call).step x action = some next) :
    next.Inv text call (record arrived action) := by
  cases action with
  | make answer => exact hinv.make hstep
  | task action => exact hinv.task hstep
  | advance waited => exact hinv.advance hstep
  | restart retry => exact hinv.restart hstep
  | interrupt => exact hinv.interrupt hstep

end Steps

/-- What a run has handed to the task of the last request made. -/
def handed (actions : List ExchangeAction) : Bytes :=
  actions.foldl record []

theorem Exchange.inv_of_run {text : TextHost} {call : Call}
    {actions : List ExchangeAction} {x : Exchange}
    (hrun : (exchangeSystem text call).run .start actions = some x) :
    x.Inv text call (handed actions) :=
  System.run_history (fun _ _ _ _ hinv hstep => hinv.step hstep)
    (Exchange.start_inv text call) hrun

/-! ## Calls that are left -/

/-- How many calls the thread makes before it leaves, once the request has
settled with `reads` chunks to come. -/
def Phase.callsLeft (reads : ℕ) : Phase → ℕ
  | .read => 3 * reads + 6
  | .addPermit _ => 3 * reads + 8
  | .done => if reads = 0 then 5 else 3 * reads + 7
  | .errorKind => 4
  | .errorMessage _ | .status => 3
  | .readFailed _ | .errorStatus _ _ | .headers _ => 2
  | .signalled _ | .free _ => 1
  | .make | .finished _ => 0

def Exchange.callsLeft (call : Call) (x : Exchange) : ℕ :=
  x.phase.callsLeft
    (match x.req with
    | some r => readsLeft call.readSize r.st.chunks
    | none => 0)

def ExchangeAction.makes : ExchangeAction → Bool
  | .make _ => true
  | _ => false

def ExchangeAction.advances : ExchangeAction → Bool
  | .advance _ => true
  | _ => false

section Ending

variable {text : TextHost} {call : Call} {arrived : Bytes}
variable {x next : Exchange}

theorem Phase.callsLeft_loop (reads : ℕ) :
    call.loop.callsLeft reads ≤ 3 * reads + 7 := by
  unfold Call.loop
  split_ifs with hsink
  · simp only [Phase.callsLeft]
    split_ifs <;> omega
  · simp only [Phase.callsLeft]
    omega

/-- What `push` leaves to do. -/
theorem Exchange.push_callsLeft (call : Call) (x : Exchange) (r : Request)
    (chunk : Bytes) :
    (({ x with req := some r } : Exchange).push call chunk).callsLeft call ≤
        3 * readsLeft call.readSize r.st.chunks + 7 ∧
      (({ x with req := some r } : Exchange).push call chunk).req =
        some r := by
  unfold Exchange.push Exchange.callsLeft
  split_ifs <;> exact ⟨Phase.callsLeft_loop _, rfl⟩

theorem Exchange.read_lowers {r : Request} (hreq : x.req = some r)
    (hphase : x.phase = .read) (hsettled : r.st.settled = true)
    {waited : Bool} (hstep : x.read call r waited = some next) :
    (∀ r', next.req = some r' → r'.st.settled = true) ∧
      next.callsLeft call + 1 ≤ x.callsLeft call := by
  have hleft : x.callsLeft call =
      3 * readsLeft call.readSize r.st.chunks + 6 := by
    unfold Exchange.callsLeft
    rw [hphase, hreq]
    rfl
  have hlowers := r.st.read_readsLeft call.readSize
  unfold Exchange.read at hstep
  split at hstep
  · cases hstep
  rename_i r' hread
  have hst : r'.st = (r.st.read (readLimit call.readSize)).2.2 := by
    unfold Request.read at hread
    split at hread
    · cases hread
      rfl
    · cases hread
  have hsettled' : r'.st.settled = true := by
    rw [hst, State.read_settled, hsettled]
  rw [← hst] at hlowers
  have hsome : ∀ chunk,
      (r.st.read (readLimit call.readSize)).1 = .chunk chunk →
        r.st.chunks ≠ [] := by
    intro chunk hresult hchunks
    unfold State.read at hresult
    rw [hchunks] at hresult
    simp only [hsettled, if_true] at hresult
    split at hresult <;> cases hresult
  have hkeeps : ∀ {y : Exchange}, y.req = some r' →
      ∀ r₀, y.req = some r₀ → r₀.st.settled = true := by
    intro y hy r₀ hr₀
    rw [hy] at hr₀
    cases hr₀
    exact hsettled'
  rw [hleft]
  split at hstep
  · rename_i chunk _ hresult
    cases hstep
    rw [if_neg (hsome chunk (by rw [hresult]))] at hlowers
    refine ⟨hkeeps rfl, ?_⟩
    simp only [Exchange.callsLeft, Phase.callsLeft]
    omega
  · rename_i chunk _ hresult
    cases hstep
    rw [if_neg (hsome chunk (by rw [hresult]))] at hlowers
    obtain ⟨hpush, hreq'⟩ := Exchange.push_callsLeft call x r' chunk
    refine ⟨hkeeps hreq', ?_⟩
    omega
  · rename_i err _ hresult
    cases hstep
    refine ⟨hkeeps rfl, ?_⟩
    simp only [Exchange.callsLeft, Phase.callsLeft]
    omega
  all_goals
    rename_i hresult
    cases hstep
    refine ⟨hkeeps rfl, ?_⟩
    have hnone := (r.st.read_none (readLimit call.readSize)
      (by simp [hresult])).2
    rw [← hst] at hnone
    simp only [Exchange.callsLeft, hnone, readsLeft, List.map_nil,
      List.sum_nil, Phase.callsLeft, if_true]
    omega

/-- A call of the thread leaves fewer calls. -/
theorem Exchange.advance_lowers
    (hsettled : ∀ r, x.req = some r → r.st.settled = true) {waited : Bool}
    (hstep : x.advance text call waited = some next) :
    (∀ r, next.req = some r → r.st.settled = true) ∧
      next.callsLeft call + 1 ≤ x.callsLeft call := by
  unfold Exchange.advance at hstep
  split at hstep
  · rename_i r hphase hreq
    exact Exchange.read_lowers hreq hphase (hsettled r hreq) hstep
  · rename_i chunk r hphase hreq
    obtain ⟨r', hreturn, rfl⟩ := Option.map_eq_some_iff.mp hstep
    obtain ⟨hpush, hreq'⟩ := Exchange.push_callsLeft call x r' chunk
    have hst : r'.st = r.st := by
      unfold Request.returnPermit at hreturn
      split at hreturn
      · cases hreturn
      · cases hreturn
        rfl
    rw [hst] at hpush
    constructor
    · intro r₀ hr₀
      rw [hreq'] at hr₀
      cases hr₀
      rw [hst]
      exact hsettled r hreq
    · have hleft : x.callsLeft call =
          3 * readsLeft call.readSize r.st.chunks + 8 := by
        unfold Exchange.callsLeft
        rw [hphase, hreq]
        rfl
      omega
  · rename_i r hphase hreq
    cases hstep
    refine ⟨hsettled, ?_⟩
    simp only [Exchange.callsLeft, hphase, hreq]
    have hdone : r.st.done = true ↔ r.st.chunks = [] := by
      simp [State.done, hsettled r hreq]
    split_ifs with hended
    · simp only [Phase.callsLeft]
      split_ifs <;> omega
    · have hchunks : readsLeft call.readSize r.st.chunks ≠ 0 := by
        have hne := mt hdone.mpr hended
        cases hqueue : r.st.chunks with
        | nil => exact absurd hqueue hne
        | cons chunk chunks => simp [readsLeft]
      simp only [Phase.callsLeft, if_neg hchunks]
      omega
  · rename_i err r hphase hreq
    cases hstep
    refine ⟨hsettled, ?_⟩
    simp [Exchange.callsLeft, hphase, Phase.callsLeft]
  · rename_i r hphase hreq
    cases hstep
    refine ⟨hsettled, ?_⟩
    cases herr : r.st.err <;>
      simp [Exchange.callsLeft, hphase, Phase.callsLeft]
  · rename_i kind r hphase hreq
    cases hstep
    refine ⟨hsettled, ?_⟩
    simp [Exchange.callsLeft, hphase, Phase.callsLeft]
  · rename_i kind detail r hphase hreq
    cases hstep
    refine ⟨hsettled, ?_⟩
    simp [Exchange.callsLeft, hphase, Phase.callsLeft]
  · rename_i r hphase hreq
    cases hstep
    refine ⟨hsettled, ?_⟩
    simp [Exchange.callsLeft, hphase, Phase.callsLeft]
  · rename_i status r hphase hreq
    split at hstep <;> cases hstep
    all_goals refine ⟨hsettled, ?_⟩
    all_goals simp [Exchange.callsLeft, hphase, Phase.callsLeft]
  · rename_i outcome r hphase hreq
    cases hstep
    constructor
    · rintro _ ⟨⟩
      exact hsettled r hreq
    · cases outcome <;>
        simp [Exchange.callsLeft, hphase, Phase.callsLeft, Phase.leaves]
  · cases hstep

theorem Exchange.unwind_callsLeft (outcome : Option Outcome)
    (hleft : x.held = true → 1 ≤ x.callsLeft call) :
    (x.unwind outcome).callsLeft call ≤ x.callsLeft call := by
  cases hheld : x.held with
  | true =>
      have hone := hleft hheld
      simpa [Exchange.unwind, hheld, Exchange.callsLeft, Phase.callsLeft]
        using hone
  | false =>
      cases outcome <;>
        simp [Exchange.unwind, hheld, Exchange.callsLeft, Phase.callsLeft,
          Phase.leaves]

theorem Exchange.Inv.callsLeft_pos (hinv : x.Inv text call arrived)
    (hheld : x.held = true) : 1 ≤ x.callsLeft call := by
  have hidle := hinv.idle
  have hover := hinv.left
  unfold Exchange.callsLeft
  cases hphase : x.phase <;> simp only [Phase.callsLeft]
  case make =>
    rw [hidle hphase] at hheld
    cases hheld
  case finished outcome =>
    rw [hover outcome hphase] at hheld
    cases hheld
  case done => split_ifs <;> omega
  all_goals omega

/-- No step but that of `MAKE-REQ` gives the thread more to do, and its own
calls give it less. -/
theorem Exchange.Inv.step_lowers (hinv : x.Inv text call arrived)
    (hsettled : ∀ r, x.req = some r → r.st.settled = true)
    {action : ExchangeAction} (hmakes : action.makes = false)
    (hstep : (exchangeSystem text call).step x action = some next) :
    (∀ r, next.req = some r → r.st.settled = true) ∧
      next.callsLeft call + (if action.advances then 1 else 0) ≤
        x.callsLeft call := by
  cases action with
  | make answer => cases hmakes
  | task action =>
      simp only [exchangeSystem, Exchange.step, Exchange.task] at hstep
      split at hstep
      · cases hstep
      rename_i r hreq
      split at hstep
      · cases hstep
      rename_i hreader
      obtain ⟨r', hmoves, rfl⟩ := Option.map_eq_some_iff.mp hstep
      have hrunning := (hinv.tracks r hreq).body.settled
      obtain ⟨hst, -, -, -⟩ := Request.settled_frozen
        (hrunning.symm.trans (hsettled r hreq)) hrunning
        (by simpa using hreader) hmoves
      constructor
      · rintro _ ⟨⟩
        rw [hst]
        exact hsettled r hreq
      · simp [Exchange.callsLeft, hreq, hst, ExchangeAction.advances]
  | advance waited => exact Exchange.advance_lowers hsettled hstep
  | restart retry =>
      simp only [exchangeSystem, Exchange.step, Exchange.restart] at hstep
      split at hstep
      · cases hstep
        exact ⟨hsettled, Exchange.unwind_callsLeft _ hinv.callsLeft_pos⟩
      · cases hstep
  | interrupt =>
      simp only [exchangeSystem, Exchange.step, Exchange.interrupt] at hstep
      split at hstep
      · cases hstep
      · cases hstep
      · cases hstep
      · cases hstep
        exact ⟨hsettled, Exchange.unwind_callsLeft _ hinv.callsLeft_pos⟩

/-- While the thread holds its handle, a call whose wait is over returns. -/
theorem Exchange.Inv.advances (hinv : x.Inv text call arrived)
    (hholds : x.phase.holds = true) :
    ∃ next, (exchangeSystem text call).step x (.advance true) =
      some next := by
  obtain ⟨r, hreq⟩ := Option.isSome_iff_exists.mp
    (hinv.present (hinv.holds hholds))
  have howes := hinv.owes r hreq
  simp only [exchangeSystem, Exchange.step, Exchange.advance]
  cases hphase : x.phase
  case make | signalled | finished =>
    rw [hphase] at hholds
    cases hholds
  case read =>
    simp only [hreq, Exchange.read, Request.read, true_or, if_true]
    split <;> exact ⟨_, rfl⟩
  case addPermit chunk =>
    rw [hphase] at howes
    simp only [hreq, Request.returnPermit, howes, Phase.owes, one_ne_zero,
      if_false, Option.map_some]
    exact ⟨_, rfl⟩
  case headers status =>
    simp only [hreq]
    split <;> exact ⟨_, rfl⟩
  all_goals
    simp only [hreq]
    exact ⟨_, rfl⟩

end Ending

end Http

open Http TransitionSystem in
/-- However `request` is left, no handle is.  It returns values only for a
transfer that settled without an error at the end of its body; they are then
every byte that arrived, or the file of the sink has them all, and the status
and the fields of that answer. -/
theorem fetch_request_delivers (text : HeaderBlock.TextHost) (call : Http.Call)
    (actions : List ExchangeAction) (x : Exchange) (outcome : Outcome)
    (hrun : (exchangeSystem text call).run .start actions = some x)
    (hleft : x.phase = .finished outcome) :
    x.made = x.freed ∧
    ∀ body status headers, outcome = .values body status headers →
      (∃ r, x.req = some r ∧ r.phase = .finished ∧ r.st.err = none ∧
        r.st.eof = true ∧ r.st.headDone = true ∧
        r.received = (handed actions).length ∧
        status = r.st.status ∧
        headers = Fetch.lispDecodeHeaders text r.st.headers ∧
        (call.sink.isSome = true → r.written = handed actions)) ∧
      body = (if call.sink.isSome then none else some (handed actions)) ∧
      (0 < call.maxBytes → (handed actions).length ≤ call.maxBytes) ∧
      (call.expectSuccess = true → 200 ≤ status ∧ status ≤ 299) := by
  have hinv := Exchange.inv_of_run hrun
  constructor
  · have hhandles := hinv.handles
    simpa [hinv.left _ hleft] using hhandles
  rintro body status headers rfl
  obtain ⟨r, hreq, hdelivered⟩ :=
    hinv.delivered body status headers (by rw [hleft]; rfl)
  have htracks := hinv.tracks r hreq
  obtain ⟨hfinished, hkept⟩ := htracks.finished
    (Fetch.State.done_iff.mp hdelivered.done).1 hdelivered.err
  have hwhole := htracks.whole
  refine ⟨⟨r, hreq, hfinished, hdelivered.err, ?_, ?_, hwhole.received,
    hdelivered.statusRead.symm, hdelivered.headersRead, ?_⟩,
    hdelivered.body, ?_, hdelivered.success⟩
  · exact hwhole.eof hkept (by rw [hfinished]; rfl)
  · exact hwhole.head hkept (by rw [hfinished]; rfl)
  · intro hsink
    have hsunk := hwhole.sunk hkept (htracks.sink.trans hsink)
    simpa [hfinished, Fetch.TaskPhase.toWrite] using hsunk
  · intro hcap
    rw [← hwhole.received, ← htracks.cap]
    exact hwhole.capped hkept (htracks.cap ▸ hcap)

open Http in
/-- A body of two bytes, buffered. -/
def smallCall : Http.Call where
  url := "http://localhost/"
  headers := []
  sink := none
  maxBytes := 2
  expectSuccess := true
  queueChunks := 1

open Http in
/-- The request settles with its chunk still queued. -/
def smallTransfer : List ExchangeAction :=
  [.make (.ok 1), .task (.respond 200 [] (some 2)), .task .storeTotal,
    .task (.arrive [10, 20]), .task .grant, .task .acquired, .task .queue,
    .task .streamEnd, .task .markEof, .task .finish, .task .isCancelled,
    .task .addPermit, .task .decrement, .task .pushReady, .task .settle]

open Http in
def smallDrain : List ExchangeAction :=
  List.replicate 8 (.advance false)

open Http in
/-- The same body, streamed to a file. -/
def sinkCall : Http.Call := { smallCall with sink := some "/tmp/body" }

open Http in
def sinkDownload : List ExchangeAction :=
  [.make (.ok 1), .task (.respond 200 [] none), .task .storeTotal,
    .task .created, .task (.arrive [10]), .task .written,
    .task (.arrive [20]), .task .written, .task .streamEnd, .task .flushed,
    .task .markEof, .task .finish, .task .isCancelled, .task .addPermit,
    .task .decrement, .task .pushReady, .task .settle, .advance false,
    .advance false, .advance false, .advance false, .advance false]

open Http in
theorem fetch_request_delivers_small :
    (∃ x, (exchangeSystem HeaderBlock.latinText smallCall).run .start
        (smallTransfer ++ smallDrain) = some x ∧
      x.phase = .finished (.values (some [10, 20]) 200 []) ∧
      handed (smallTransfer ++ smallDrain) = [10, 20] ∧
      x.made = x.freed) ∧
    ∃ x r, (exchangeSystem HeaderBlock.latinText sinkCall).run .start
        sinkDownload = some x ∧ x.req = some r ∧ r.written = [10, 20] := by
  constructor
  · refine ⟨_, rfl, rfl, rfl, ?_⟩
    exact (fetch_request_delivers HeaderBlock.latinText smallCall
      (smallTransfer ++ smallDrain) _ (.values (some [10, 20]) 200 [])
      rfl rfl).1
  · obtain ⟨⟨r, hreq, -, -, -, -, -, -, -, hwritten⟩, -⟩ :=
      (fetch_request_delivers HeaderBlock.latinText sinkCall sinkDownload _
        (.values none 200 []) rfl rfl).2 none 200 [] rfl
    exact ⟨_, r, rfl, hreq, hwritten rfl⟩

open Http TransitionSystem in
/-- Once the request has settled, the thread makes a bounded number of calls
before it signals, leaves or asks for another request, whatever the task and
other threads still do; and it is never stuck in one. -/
theorem fetch_drain_ends (text : HeaderBlock.TextHost) (call : Http.Call)
    (before after : List ExchangeAction) (x later : Exchange)
    (hrun : (exchangeSystem text call).run .start before = some x)
    (hsettled : ∀ r, x.req = some r → r.st.settled = true)
    (hafter : (exchangeSystem text call).run x after = some later)
    (hsame : ∀ action ∈ after, action.makes = false) :
    after.countP ExchangeAction.advances ≤ x.callsLeft call ∧
    (later.phase.holds = true →
      ∃ next, (exchangeSystem text call).step later (.advance true) =
        some next) := by
  have hinv := Exchange.inv_of_run hrun
  constructor
  · have hmeasure := @System.run_measure _ _ (exchangeSystem text call)
      (fun y => (∃ arrived, y.Inv text call arrived) ∧
        ∀ r, y.req = some r → r.st.settled = true)
      (fun action => action.makes = false) (Exchange.callsLeft call)
      ExchangeAction.advances
      (by
        rintro y action next ⟨⟨arrived, hy⟩, hdone⟩ hmakes hstep
        obtain ⟨hnext, hlower⟩ := hy.step_lowers hdone hmakes hstep
        exact ⟨⟨⟨_, hy.step hstep⟩, hnext⟩, hlower⟩)
      x later after ⟨⟨_, hinv⟩, hsettled⟩ hsame hafter
    omega
  · intro hholds
    have hlater := System.run_history
      (fun _ _ _ _ hinv hstep => hinv.step hstep) hinv hafter
    exact hlater.advances hholds

open Http in
theorem fetch_drain_ends_small :
    ∃ x, (exchangeSystem HeaderBlock.latinText smallCall).run .start
        smallTransfer = some x ∧
      smallDrain.countP ExchangeAction.advances ≤ x.callsLeft smallCall := by
  refine ⟨_, rfl, ?_⟩
  refine (fetch_drain_ends HeaderBlock.latinText smallCall smallTransfer
    smallDrain _ _ rfl ?_ rfl ?_).1
  · rintro _ ⟨⟩
    rfl
  · decide

end Rulisp
