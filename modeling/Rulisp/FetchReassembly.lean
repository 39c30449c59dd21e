import Rulisp.FetchRequest

/-!
# Reassembly of a body

Over every run of a request, what `read` returns is what the task queued, in
the order of the lock, and the chunk permits are conserved.
-/

namespace Rulisp

namespace Fetch

open TransitionSystem

/-! ## The log of a body -/

def BodyEvent.bytesQueued : BodyEvent → Bytes
  | .queued bytes => bytes
  | .read _ => []

def BodyEvent.bytesRead : BodyEvent → Bytes
  | .read (.chunk bytes) => bytes
  | _ => []

/-- Every byte that the task has queued, in the order of arrival. -/
def queuedBytes (log : List BodyEvent) : Bytes :=
  log.flatMap BodyEvent.bytesQueued

/-- Every byte that reads have returned, in the order of the lock. -/
def readBytes (log : List BodyEvent) : Bytes :=
  log.flatMap BodyEvent.bytesRead

/-- The read returned the error, or reported the end. -/
def BodyEvent.ends : BodyEvent → Bool
  | .read (.error _) | .read .endOfBody => true
  | _ => false

@[simp] theorem queuedBytes_append (log log' : List BodyEvent) :
    queuedBytes (log ++ log') = queuedBytes log ++ queuedBytes log' :=
  List.flatMap_append

@[simp] theorem readBytes_append (log log' : List BodyEvent) :
    readBytes (log ++ log') = readBytes log ++ readBytes log' :=
  List.flatMap_append

@[simp] theorem queuedBytes_singleton (event : BodyEvent) :
    queuedBytes [event] = event.bytesQueued :=
  List.flatMap_singleton _ _

@[simp] theorem readBytes_singleton (event : BodyEvent) :
    readBytes [event] = event.bytesRead :=
  List.flatMap_singleton _ _

/-- Nothing is queued after the end, and the end comes after every byte. -/
def AdmitsBody (before : List BodyEvent) (event : BodyEvent) : Prop :=
  (event.ends = true → readBytes before = queuedBytes before) ∧
    (event.bytesQueued ≠ [] → ∀ earlier ∈ before, earlier.ends = false)

/-- An end comes after every byte that is ever queued. -/
theorem readBytes_of_ends {log before after : List BodyEvent}
    {event : BodyEvent} (hguarded : Guarded AdmitsBody log)
    (hlog : log = before ++ event :: after) (hends : event.ends = true) :
    readBytes before = queuedBytes log := by
  have hbefore := (hguarded before event after hlog).1 hends
  have hnone : event.bytesQueued = [] := by
    cases event with
    | queued bytes => cases hends
    | read result => rfl
  have hafter : queuedBytes after = [] := by
    apply List.flatMap_eq_nil_iff.mpr
    intro later hlater
    by_contra hbytes
    obtain ⟨middle, rest, rfl⟩ := List.append_of_mem hlater
    have hadmits := hguarded (before ++ event :: middle) later rest
      (by simp [hlog])
    have hnot := hadmits.2 hbytes event (by simp)
    rw [hends] at hnot
    cases hnot
  calc
    readBytes before = queuedBytes before := hbefore
    _ = queuedBytes log := by
      rw [hlog, ← List.singleton_append, queuedBytes_append,
        queuedBytes_append, queuedBytes_singleton, hnone, hafter]
      simp

/-! ## One read -/

section Read

variable (st : State) (max : ℕ)

theorem State.read_settled : (st.read max).2.2.settled = st.settled := by
  unfold State.read
  split
  · split_ifs <;> rfl
  · split_ifs
    · split <;> rfl
    · rfl

/-- What a read returns is what it takes off the front of the queue. -/
theorem State.read_bytes :
    BodyEvent.bytesRead (.read (st.read max).1) ++
        (st.read max).2.2.chunks.flatten = st.chunks.flatten := by
  unfold State.read
  split
  · rename_i chunk chunks hchunks
    rw [hchunks]
    split_ifs
    · simp only [BodyEvent.bytesRead, List.flatten_cons]
      rw [← List.append_assoc, List.take_append_drop]
    · rfl
  · rename_i hchunks
    rw [hchunks]
    split_ifs
    · split <;> simp [BodyEvent.bytesRead, hchunks]
    · simp [BodyEvent.bytesRead, hchunks]

def State.BufferedExact (st : State) : Prop :=
  st.buffered = (st.chunks.map List.length).sum

theorem State.read_buffered (hexact : st.BufferedExact) :
    (st.read max).2.2.BufferedExact := by
  unfold State.BufferedExact at hexact ⊢
  unfold State.read
  split
  · rename_i chunk chunks hchunks
    rw [hchunks] at hexact
    simp only [List.map_cons, List.sum_cons] at hexact
    split_ifs
    · simp only [List.map_cons, List.sum_cons, List.length_take,
        List.length_drop]
      omega
    · simp only
      omega
  · split_ifs
    · split <;> exact hexact
    · exact hexact

/-- A slot is freed exactly when a read owes its permit. -/
theorem State.read_slots :
    (st.read max).2.2.chunks.length +
        (if (st.read max).2.1 then 1 else 0) = st.chunks.length := by
  unfold State.read
  split
  · rename_i chunk chunks hchunks
    rw [hchunks]
    by_cases hlong : max < chunk.length
    · simp only [if_pos hlong]
      rfl
    · simp only [if_neg hlong]
      rfl
  · by_cases hsettled : st.settled = true
    · simp only [if_pos hsettled]
      split <;> rfl
    · simp only [if_neg hsettled]
      rfl

/-- A read that ends the body found it settled and drained. -/
theorem State.read_ends
    (hends : BodyEvent.ends (.read (st.read max).1) = true) :
    st.settled = true ∧ st.chunks = [] := by
  unfold State.read at hends
  split at hends
  · split_ifs at hends <;> cases hends
  · rename_i hchunks
    split_ifs at hends with hsettled
    · exact ⟨hsettled, hchunks⟩
    · cases hends

end Read

/-! ## The invariant -/

/-- What holds of a request with `slots` chunk slots after any run. -/
structure Request.BodyInv (slots : ℕ) (r : Request) : Prop where
  settled : r.st.settled = r.phase.settled
  bytes : readBytes r.log ++ r.st.chunks.flatten = queuedBytes r.log
  buffered : r.st.BufferedExact
  permits : r.chunkPermits + r.st.chunks.length + r.phase.inTransit +
    r.returning = slots
  ended : ∀ event ∈ r.log, event.ends = true →
    r.st.settled = true ∧ r.st.chunks = []
  guarded : Guarded AdmitsBody r.log

theorem Request.start_bodyInv (slots : ℕ) (sink : Bool) (maxBodyBytes : ℕ) :
    (Request.start slots sink maxBodyBytes).BodyInv slots where
  settled := rfl
  bytes := rfl
  buffered := rfl
  permits := rfl
  ended := nofun
  guarded := .nil _

section Invariant

variable {slots : ℕ} {r r' : Request}

theorem Request.BodyInv.quiet (hinv : r.BodyInv slots)
    (hsame : r.SameBody r') : r'.BodyInv slots := by
  obtain ⟨hsettled, hchunks, hbuffered, hpermits, hreturning, hlog,
    htransit, hphase⟩ := hsame
  constructor
  · rw [hsettled, hphase, hinv.settled]
  · rw [hlog, hchunks, hinv.bytes]
  · have hexact := hinv.buffered
    unfold State.BufferedExact at hexact ⊢
    rw [hbuffered, hchunks, hexact]
  · rw [hpermits, hchunks, htransit, hreturning, hinv.permits]
  · rw [hlog, hsettled, hchunks]
    exact hinv.ended
  · rw [hlog]
    exact hinv.guarded

theorem Request.BodyInv.queued (hinv : r.BodyInv slots) {bytes : Bytes}
    (hphase : r.phase = .queueing bytes) :
    ({ r with
      st := r.st.queue bytes
      phase := .streaming
      log := r.log ++ [.queued bytes] } : Request).BodyInv slots := by
  have hrunning : r.st.settled = false := by
    rw [hinv.settled, hphase]
    rfl
  have hopen : ∀ event ∈ r.log, event.ends = false := by
    intro event hevent
    by_contra hends
    have hended := hinv.ended event hevent (by simpa using hends)
    rw [hrunning] at hended
    cases hended.1
  constructor
  · exact hrunning
  · have hbytes := hinv.bytes
    simp only [State.queue, readBytes_append, queuedBytes_append,
      readBytes_singleton, queuedBytes_singleton, BodyEvent.bytesRead,
      BodyEvent.bytesQueued, List.flatten_append, List.flatten_singleton,
      List.append_nil]
    rw [← List.append_assoc, hbytes]
  · have hexact := hinv.buffered
    unfold State.BufferedExact at hexact ⊢
    simp [State.queue, hexact]
  · have hpermits := hinv.permits
    rw [hphase] at hpermits
    simp only [TaskPhase.inTransit, State.queue, List.length_append,
      List.length_singleton] at hpermits ⊢
    omega
  · intro event hevent hends
    rcases List.mem_append.mp hevent with hold | hnew
    · rw [hopen event hold] at hends
      cases hends
    · rw [List.mem_singleton.mp hnew] at hends
      cases hends
  · have hgoesOn : BodyEvent.ends (.queued bytes) ≠ true := Bool.false_ne_true
    exact hinv.guarded.append
      ⟨fun hends => absurd hends hgoesOn, fun _ => hopen⟩

theorem Request.BodyInv.settled_step (hinv : r.BodyInv slots)
    {err : Option HttpError} {phase : TaskPhase}
    (htransit : r.phase.inTransit = 0) (htransit' : phase.inTransit = 0)
    (hphase : phase.settled = true) :
    ({ r with st := r.st.settle err, phase := phase } : Request).BodyInv
      slots := by
  have hsettled : (r.st.settle err).settled = true := by
    unfold State.settle
    split_ifs with hold
    · exact hold
    · rfl
  have hchunks : (r.st.settle err).chunks = r.st.chunks := by
    unfold State.settle
    split_ifs <;> rfl
  have hbuffered : (r.st.settle err).buffered = r.st.buffered := by
    unfold State.settle
    split_ifs <;> rfl
  constructor
  · rw [hsettled, hphase]
  · simp only [hchunks]
    exact hinv.bytes
  · have hexact := hinv.buffered
    unfold State.BufferedExact at hexact ⊢
    rw [hbuffered, hchunks, hexact]
  · have hpermits := hinv.permits
    simp only [hchunks, htransit']
    omega
  · intro event hevent hends
    exact ⟨hsettled, hchunks.trans (hinv.ended event hevent hends).2⟩
  · exact hinv.guarded

theorem Request.BodyInv.read (hinv : r.BodyInv slots) (max : ℕ) :
    ({ r with
      st := (r.st.read max).2.2
      returning := if (r.st.read max).2.1 then r.returning + 1
        else r.returning
      log := r.log ++ [.read (r.st.read max).1] } : Request).BodyInv
      slots := by
  have hbytes := r.st.read_bytes max
  have hslots := r.st.read_slots max
  have hsettled := r.st.read_settled max
  have hdrained : r.st.chunks = [] → (r.st.read max).2.2.chunks = [] := by
    intro hempty
    rw [hempty] at hslots
    apply List.length_eq_zero_iff.mp
    simp only [List.length_nil] at hslots
    omega
  constructor
  · exact hsettled.trans hinv.settled
  · simp only [readBytes_append, queuedBytes_append, readBytes_singleton,
      queuedBytes_singleton, List.append_assoc, hbytes]
    rw [hinv.bytes]
    simp [BodyEvent.bytesQueued]
  · exact r.st.read_buffered max hinv.buffered
  · have hpermits := hinv.permits
    simp only
    split_ifs at hslots ⊢ <;> omega
  · intro event hevent hends
    rcases List.mem_append.mp hevent with hold | hnew
    · obtain ⟨hbefore, hempty⟩ := hinv.ended event hold hends
      exact ⟨hsettled.trans hbefore, hdrained hempty⟩
    · rw [List.mem_singleton.mp hnew] at hends
      obtain ⟨hbefore, hempty⟩ := r.st.read_ends max hends
      exact ⟨hsettled.trans hbefore, hdrained hempty⟩
  · refine hinv.guarded.append ⟨fun hends => ?_, fun hnone => ?_⟩
    · obtain ⟨-, hempty⟩ := r.st.read_ends max hends
      have hall := hinv.bytes
      rw [hempty] at hall
      simpa using hall
    · exact absurd rfl hnone

/-- One step keeps the invariant. -/
theorem Request.BodyInv.step (hinv : r.BodyInv slots)
    {action : RequestAction} (hstep : r.step action = some r') :
    r'.BodyInv slots := by
  have hpermits := hinv.permits
  cases Request.step_effect hstep with
  | quiet hsame => exact hinv.quiet hsame
  | granted hphase hpermit =>
      rw [hphase] at hpermits
      refine ⟨?_, hinv.bytes, hinv.buffered, ?_, hinv.ended, hinv.guarded⟩
      · rw [hinv.settled, hphase]
        rfl
      · simp only [TaskPhase.inTransit] at hpermits ⊢
        omega
  | givenBack hphase htransit hsettled =>
      rw [hphase] at hpermits
      refine ⟨?_, hinv.bytes, hinv.buffered, ?_, hinv.ended, hinv.guarded⟩
      · rw [hinv.settled, hphase, hsettled]
        rfl
      · have hone : ∀ bytes, (TaskPhase.granted bytes).inTransit = 1 :=
          fun _ => rfl
        simp only [hone, htransit] at hpermits ⊢
        omega
  | queued hphase => exact hinv.queued hphase
  | settled htransit htransit' hsettled =>
      exact hinv.settled_step htransit htransit' hsettled
  | read max => exact hinv.read max
  | returned hreturning =>
      refine ⟨hinv.settled, hinv.bytes, hinv.buffered, ?_, hinv.ended,
        hinv.guarded⟩
      simp only
      omega

theorem Request.BodyInv.reaches (hinv : r.BodyInv slots)
    (hreach : requestSystem.Reaches r r') : r'.BodyInv slots :=
  hreach.invariant (fun _ _ _ hinv hstep => hinv.step hstep) hinv

end Invariant

/-! ## The end of a body -/

/-- A request that is done stays so, and nothing more is read of it. -/
theorem Request.done_step {slots : ℕ} {r r' : Request}
    {action : RequestAction} (hinv : r.BodyInv slots)
    (hdone : r.st.done = true) (hstep : r.step action = some r') :
    r'.st.done = true ∧ readBytes r'.log = readBytes r.log := by
  have hended : r.st.settled = true ∧ r.st.chunks = [] := by
    simpa [State.done] using hdone
  obtain ⟨hsettled, hchunks⟩ := hended
  have hphase : r.phase.settled = true := hinv.settled.symm.trans hsettled
  cases Request.step_effect hstep with
  | quiet hsame =>
      rw [State.done, hsame.settled, hsame.chunks, hsame.log]
      exact ⟨hdone, rfl⟩
  | granted hbefore _ =>
      rw [hbefore] at hphase
      cases hphase
  | givenBack hbefore =>
      rw [hbefore] at hphase
      cases hphase
  | queued hbefore =>
      rw [hbefore] at hphase
      cases hphase
  | settled =>
      have hsame : ∀ err, r.st.settle err = r.st := fun err => if_pos hsettled
      simp only [hsame]
      exact ⟨hdone, trivial⟩
  | read max =>
      have hread : (r.st.read max).2.2 = r.st ∧
          BodyEvent.bytesRead (.read (r.st.read max).1) = [] := by
        unfold State.read
        rw [hchunks]
        simp only [hsettled, if_true]
        split <;> exact ⟨rfl, rfl⟩
      simp only [hread.1, readBytes_append, readBytes_singleton, hread.2,
        List.append_nil]
      exact ⟨hdone, trivial⟩
  | returned => exact ⟨hdone, rfl⟩

theorem Request.done_reaches {slots : ℕ} {r r' : Request}
    (hinv : r.BodyInv slots) (hdone : r.st.done = true)
    (hreach : requestSystem.Reaches r r') :
    r'.st.done = true ∧ readBytes r'.log = readBytes r.log := by
  let kept := fun later : Request => later.BodyInv slots ∧
    later.st.done = true ∧ readBytes later.log = readBytes r.log
  have hkept : kept r' := by
    apply @System.Reaches.invariant _ _ _ kept _ _ _ hreach ⟨hinv, hdone, rfl⟩
    rintro later action next ⟨hlater, hdone', hsame⟩ hstep
    obtain ⟨hnext, hsame'⟩ := Request.done_step hlater hdone' hstep
    exact ⟨hlater.step hstep, hnext, hsame'.trans hsame⟩
  exact hkept.2

end Fetch

open Fetch TransitionSystem in
/-- In every reachable state of a request the reads have returned a prefix of
the bytes queued, the counters are exact, a read that gave the error or the
end came after every byte, and a request that is done stays done. -/
theorem fetch_read_reassembly (queueChunks : ℕ) (sink : Bool)
    (maxBodyBytes : ℕ) (r : Fetch.Request)
    (hreach : requestSystem.Reaches
      (Request.start queueChunks sink maxBodyBytes) r) :
    readBytes r.log <+: queuedBytes r.log ∧
    (∀ before event after, r.log = before ++ event :: after →
      event.ends = true → readBytes before = queuedBytes r.log) ∧
    r.st.buffered = (r.st.chunks.map List.length).sum ∧
    r.chunkPermits + r.st.chunks.length + r.phase.inTransit + r.returning =
      queueChunks ∧
    (r.st.done = true → ∀ later, requestSystem.Reaches r later →
      later.st.done = true ∧ readBytes later.log = readBytes r.log) := by
  have hinv : r.BodyInv queueChunks :=
    (Request.start_bodyInv queueChunks sink maxBodyBytes).reaches hreach
  refine ⟨⟨_, hinv.bytes⟩, ?_, hinv.buffered, hinv.permits, ?_⟩
  · intro before event after hlog hends
    exact readBytes_of_ends hinv.guarded hlog hends
  · intro hdone later hlater
    exact Request.done_reaches hinv hdone hlater

open Fetch in
/-- A body of one chunk, read in two parts. -/
def splitTransfer : List RequestAction :=
  [.identify 1, .spawn, .respond 200 [] none, .storeTotal,
    .arrive [10, 20, 30], .grant, .acquired, .queue, .read 2 false,
    .read 0 false, .returnPermit, .streamEnd, .markEof, .finish,
    .isCancelled, .addPermit, .decrement, .pushReady, .settle, .read 0 false]

open Fetch in
theorem fetch_read_reassembly_split :
    ∃ r, requestSystem.run (Request.start 1 false 0) splitTransfer = some r ∧
      r.st.done = true ∧ readBytes r.log = [10, 20, 30] ∧
      readBytes r.log <+: queuedBytes r.log := by
  refine ⟨_, rfl, rfl, rfl, ?_⟩
  exact (fetch_read_reassembly 1 false 0 _ ⟨splitTransfer, rfl⟩).1

end Rulisp
