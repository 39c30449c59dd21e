import Rulisp.WasiRuns

/-!
# What a sandboxed guest reaches

The descriptors that a guest holds through its directories are counted
exactly, and it reaches nothing of the host but what it was given, and that
only to read.
-/

namespace Rulisp

namespace Wasi

open DescriptorTable TransitionSystem

/-! ## Calls of a read-only directory -/

/-- What a call of a `ReadOnlyDir` does, with `live` descriptors held. -/
inductive ReadOnlyDir.Does (live : ℕ) (call : DirCall) : DirOutcome → Prop
  | refuses : Does live call ⟨[], live, .error .rofs⟩
  | forwards {answer : Except Errno DirReply} (hread : call.readOnly = true)
      (hanswer : ∀ result, answer ≠ .ok (.opened result)) :
      Does live call ⟨[⟨call, none⟩], live, answer⟩
  | stops {path : String} {follow : Bool} {e : Errno} :
      Does live call
        ⟨[⟨.getPathFilestat path follow, none⟩], live, .error e⟩
  | fails {path : String} {follow : Bool} {e : Errno} {sent : DirCall}
      (hread : sent.readOnly = true) :
      Does live call
        ⟨[⟨.getPathFilestat path follow, none⟩, ⟨sent, none⟩], live,
          .error e⟩
  | opens {path : String} {follow : Bool} {sent : DirCall}
      {result : OpenResult} (hread : sent.readOnly = true)
      (hfree : live < OPEN_DESCRIPTORS) :
      Does live call
        ⟨[⟨.getPathFilestat path follow, none⟩, ⟨sent, some result⟩],
          live + 1, .ok (.opened result)⟩

section Directories

variable {host : DirHost} {live : ℕ} {call : DirCall} {out : DirOutcome}

theorem ReadOnlyDir.openFile_does (host : DirHost) (live : ℕ) (follow : Bool)
    (path : String) (oflags : OFlags) (read write : Bool)
    (fdflags : FdFlags) :
    ReadOnlyDir.Does live (.openFile follow path oflags read write fdflags)
      (ReadOnlyDir.openFile host live follow path oflags read write
        fdflags) := by
  unfold ReadOnlyDir.openFile
  split_ifs with hchanges
  · exact .refuses
  have hread : (DirCall.openFile follow path oflags read false
      fdflags).readOnly = true := by
    simp only [Bool.or_eq_true, not_or, Bool.not_eq_true] at hchanges
    simp [DirCall.readOnly, hchanges.2]
  split
  · exact .stops
  split_ifs with hkind
  · by_cases hfull : OPEN_DESCRIPTORS ≤ live
    · simp only [Slot.take, if_pos hfull]
      exact .stops
    · simp only [Slot.take, if_neg hfull]
      split
      · exact .fails hread
      · exact .opens hread (Nat.lt_of_not_le hfull)
  · exact .stops

theorem map_ne_opened {α : Type} {reply : Except Errno α} {f : α → DirReply}
    (hf : ∀ a result, f a ≠ .opened result) (result : OpenResult) :
    reply.map f ≠ .ok (.opened result) := by
  cases reply with
  | error e => exact fun h => by cases h
  | ok a => exact fun h => hf a result (Except.ok.inj h)

theorem ReadOnlyDir.call_does (host : DirHost) (live : ℕ) (call : DirCall) :
    ReadOnlyDir.Does live call (ReadOnlyDir.call host live call) := by
  cases call with
  | openFile follow path oflags read write fdflags =>
      exact ReadOnlyDir.openFile_does host live follow path oflags read write
        fdflags
  | readdir | readLink | getFilestat | getPathFilestat =>
      exact .forwards rfl (map_ne_opened (by simp))
  | _ => exact .refuses

/-- What reaches the host cannot change it. -/
theorem ReadOnlyDir.Does.readOnly (hdoes : ReadOnlyDir.Does live call out)
    {ask : DirAsk} (hask : ask ∈ out.asked) : ask.call.readOnly = true := by
  cases hdoes with
  | refuses => cases hask
  | forwards hread =>
      rw [List.mem_singleton.mp hask]
      exact hread
  | stops =>
      rw [List.mem_singleton.mp hask]
      rfl
  | fails hread | opens hread =>
      rcases List.mem_pair.mp hask with rfl | rfl
      · rfl
      · exact hread

/-- The directory opens what the host has opened, and takes one slot. -/
theorem ReadOnlyDir.Does.opened (hdoes : ReadOnlyDir.Does live call out)
    {result : OpenResult} (hanswer : out.answer = .ok (.opened result)) :
    (∃ ask ∈ out.asked, ask.opened = some result) ∧ out.live = live + 1 ∧
      live < OPEN_DESCRIPTORS := by
  cases hdoes with
  | forwards _ hnot => exact absurd hanswer (hnot result)
  | opens _ hfree =>
      cases hanswer
      exact ⟨⟨_, List.mem_cons_of_mem _ List.mem_cons_self, rfl⟩, rfl, hfree⟩
  | refuses | stops | fails => cases hanswer

theorem ReadOnlyDir.Does.live_eq (hdoes : ReadOnlyDir.Does live call out)
    (hanswer : ∀ result, out.answer ≠ .ok (.opened result)) :
    out.live = live := by
  cases hdoes with
  | opens => exact absurd rfl (hanswer _)
  | _ => rfl

/-- An open that the host grants is refused only when every slot is held. -/
theorem ReadOnlyDir.openFile_granted {follow read : Bool} {path : String}
    {oflags : OFlags} {fdflags : FdFlags} {kind : FileType}
    {result : OpenResult} (hchanges : oflags.changes = false)
    (hstat : host.getPathFilestat path follow = .ok kind)
    (hkind : kind = .regularFile ∨ kind = .directory ∨ kind = .symbolicLink)
    (hopen : host.openFile follow path oflags read false fdflags =
      .ok result) :
    (ReadOnlyDir.call host live
        (.openFile follow path oflags read false fdflags)).answer =
      if live < OPEN_DESCRIPTORS then .ok (.opened result)
      else .error .mfile := by
  simp only [ReadOnlyDir.call, ReadOnlyDir.openFile, hchanges, Bool.or_self,
    Bool.false_eq_true, if_false, hstat, if_pos hkind, Slot.take]
  by_cases hfull : OPEN_DESCRIPTORS ≤ live
  · simp [if_pos hfull, if_neg (Nat.not_lt.mpr hfull)]
  · simp [if_neg hfull, if_pos (Nat.lt_of_not_le hfull), hopen]

end Directories

/-! ## The descriptors are counted -/

/-- The entry stands for a file or a directory of the host. -/
def Entry.object : Entry → Option OpenResult
  | .dir inner _ => some (.dir inner)
  | .file inner => some (.file inner)
  | _ => none

structure Sandbox.SlotInv (s : Sandbox) : Prop where
  live : s.live = held s.table Entry.slot
  bounded : s.live ≤ OPEN_DESCRIPTORS
  start : s.stage = .starting → ∀ entry ∈ s.table, entry.2.object = none
  quiet : s.stage ≠ .running → s.stage ≠ .poisoned → s.live = 0
  spent : s.stage = .idle → s.ran = true → s.table = freshTable

section Slots

variable {s next : Sandbox}

theorem Sandbox.new_slotInv (fuel memoryLimit : ℕ) :
    (Sandbox.new fuel memoryLimit).SlotInv where
  live := rfl
  bounded := Nat.zero_le _
  start _ entry hmem := by
    simp only [Sandbox.new, put, erase, freshTable] at hmem
    revert entry
    decide
  quiet _ _ := rfl
  spent hidle := by cases hidle

/-- Dropping an entry gives its slot back. -/
theorem Sandbox.dropAt_eq (hlive : s.live = held s.table Entry.slot)
    (fd : ℕ) : s.dropAt fd = held (erase fd s.table) Entry.slot := by
  unfold Sandbox.dropAt
  split
  · rename_i entry hfind
    have herase := @held_erase _ _ _ Entry.slot _ hfind
    cases hslot : entry.slot
    · simpa [hslot, hlive] using herase.symm
    · rw [hlive, ← herase, hslot]
      rfl
  · rename_i hfind
    rw [erase_of_find_none hfind, hlive]

/-- Moving an entry over another gives back the slot of the other. -/
theorem Sandbox.renumber_live (hlive : s.live = held s.table Entry.slot)
    {source target : ℕ} {entry old : Entry}
    (hsource : find source s.table = some entry)
    (htarget : find target s.table = some old) (hne : source ≠ target) :
    s.dropAt target =
      held (put (erase source s.table) target entry) Entry.slot := by
  have hkept : find target (erase source s.table) = some old :=
    (find_erase_ne (Ne.symm hne)).trans htarget
  have hmoved := @held_erase _ _ _ Entry.slot _ hsource
  have hdropped := @held_erase _ _ _ Entry.slot _ htarget
  have hafter := @held_erase _ _ _ Entry.slot _ hkept
  rw [Sandbox.dropAt_eq hlive, held_put]
  omega

theorem releases_self (n : ℕ) : releases n n = 0 := by
  induction n with
  | zero => rfl
  | succ n ih => exact ih

theorem Sandbox.freshWasi_live (hlive : s.live = held s.table Entry.slot) :
    s.freshWasi.live = 0 := by
  simp only [Sandbox.freshWasi, ← hlive, releases_self]

theorem Sandbox.SlotInv.time (hinv : s.SlotInv) (time : HostTime)
    (elapsed : List ℕ) :
    ({ s with time := time, elapsed := elapsed } : Sandbox).SlotInv :=
  ⟨hinv.live, hinv.bounded, hinv.start, hinv.quiet, hinv.spent⟩

/-- While the guest runs, a table with the right count is enough; in the
(start) section it holds nothing of the host. -/
theorem Sandbox.SlotInv.table (halive : s.Alive)
    (hframe : next = { s with
      captured := next.captured
      live := next.live
      table := next.table
      writes := next.writes
      asked := next.asked })
    (hlive : next.live = held next.table Entry.slot)
    (hbounded : next.live ≤ OPEN_DESCRIPTORS)
    (hstart : s.stage = .starting →
      ∀ entry ∈ next.table, entry.2.object = none) : next.SlotInv := by
  have hstage : next.stage = s.stage := by rw [hframe]
  refine ⟨hlive, hbounded, fun h => hstart (hstage ▸ h), ?_, ?_⟩
  · intro hnot _
    rcases halive with hstarting | hrunning
    · rw [hlive]
      apply held_eq_zero
      intro entry hmem
      have hnone := hstart hstarting entry hmem
      revert hnone
      cases entry.2 <;> simp [Entry.object, Entry.slot]
    · exact absurd (hstage.trans hrunning) hnot
  · intro hidle
    rw [hstage] at hidle
    rcases halive with h | h <;> rw [h] at hidle <;> cases hidle

theorem Sandbox.SlotInv.serve (hinv : s.SlotInv) (halive : s.Alive)
    {call : GuestCall} (hserve : s.serve call = some next) :
    next.SlotInv := by
  have hframe := Sandbox.serve_frame hserve
  obtain ⟨hlive, hbounded, hstart, -, -⟩ := hinv
  have hdrop : ∀ fd, s.dropAt fd ≤ OPEN_DESCRIPTORS := by
    intro fd
    rw [Sandbox.dropAt_eq hlive]
    exact held_erase_le.trans (hlive ▸ hbounded)
  cases call with
  | write fd bufs =>
      simp only [Sandbox.serve] at hserve
      split at hserve <;> cases hserve
      exact Sandbox.SlotInv.table halive hframe hlive hbounded hstart
  | dir fd host call fresh =>
      simp only [Sandbox.serve] at hserve
      split at hserve
      · rename_i inner slot hfind
        have hrunning : s.stage ≠ .starting := by
          intro hstarting
          cases hstart hstarting _ (mem_of_find hfind)
        have hdoes := ReadOnlyDir.call_does host s.live call
        split at hserve
        · rename_i result hanswer
          obtain ⟨-, hmore, hfree⟩ := hdoes.opened hanswer
          split at hserve <;> cases hserve
          rename_i hnew
          apply Sandbox.SlotInv.table halive hframe
          · have hslot : result.entry.slot = true := by cases result <;> rfl
            have hput := @held_put_new _ _ _ Entry.slot result.entry hnew
            rw [hslot, ← hlive] at hput
            exact hmore.trans hput.symm
          · exact hmore.trans_le hfree
          · exact fun h => absurd h hrunning
        · rename_i hanswer
          have hsame := hdoes.live_eq (fun result h => hanswer result h)
          cases hserve
          apply Sandbox.SlotInv.table halive hframe
          · exact hsame.trans hlive
          · exact hsame.trans_le hbounded
          · exact hstart
      · cases hserve
  | file fd call =>
      simp only [Sandbox.serve] at hserve
      split at hserve <;> cases hserve
      exact Sandbox.SlotInv.table halive hframe hlive hbounded hstart
  | close fd =>
      simp only [Sandbox.serve] at hserve
      split at hserve <;> cases hserve
      apply Sandbox.SlotInv.table halive hframe
      · exact Sandbox.dropAt_eq hlive fd
      · exact hdrop fd
      · exact fun h entry hmem => hstart h entry (mem_of_mem_erase hmem)
  | renumber source target =>
      simp only [Sandbox.serve] at hserve
      split at hserve
      · rename_i entry old hsource htarget
        split_ifs at hserve with hsame
        · cases hserve
          exact Sandbox.SlotInv.table halive hframe hlive hbounded hstart
        · cases hserve
          apply Sandbox.SlotInv.table halive hframe
          · exact Sandbox.renumber_live hlive hsource htarget hsame
          · exact hdrop target
          · intro h other hmem
            rcases mem_of_mem_put hmem with rfl | hold
            · exact hstart h (source, entry) (mem_of_find hsource)
            · exact hstart h other (mem_of_mem_erase hold)
      · cases hserve
  | other =>
      cases hserve
      exact Sandbox.SlotInv.table halive hframe hlive hbounded hstart

theorem Sandbox.SlotInv.finish (hinv : s.SlotInv) (hlife : s.LifeInv)
    {outcome : Except WasmError ℕ} {started : Stage}
    (hleaves : started.LeavesLoad)
    (hfinish : s.finish outcome started = some next) : next.SlotInv := by
  have hfresh := Sandbox.freshWasi_live hinv.live
  rcases Sandbox.finish_cases hfinish with
    ⟨hstage, ⟨error, -, rfl⟩ | ⟨hnot, rfl⟩⟩ | ⟨-, rfl⟩
  · exact ⟨hfresh, hfresh.trans_le (Nat.zero_le _), by simp,
      fun _ _ => hfresh, by simp⟩
  · have hran := hlife.before (.inl hstage)
    obtain rfl | ⟨error, rfl⟩ := hleaves
    · have hquiet := hinv.quiet (by simp [hstage]) (by simp [hstage])
      exact ⟨hinv.live, hinv.bounded, by simp, fun _ _ => hquiet,
        fun _ h => absurd (hran.symm.trans h) Bool.false_ne_true⟩
    · exact absurd rfl (hnot error)
  · exact ⟨hfresh, hfresh.trans_le (Nat.zero_le _), by simp,
      fun _ _ => hfresh, fun _ _ => rfl⟩

theorem Sandbox.SlotInv.accepts (hinv : s.SlotInv) (hstage : s.stage = .idle)
    (hran : s.ran = false) {call : HostCall}
    (hpossible : call.possible s = true) (haccepts : s.Accepts call next) :
    next.SlotInv := by
  obtain ⟨hlive, hbounded, -, hquiet, -⟩ := hinv
  have hzero := hquiet (by simp [hstage]) (by simp [hstage])
  have hfresh : ∀ {p : Prop}, s.ran = true → p := fun h =>
    absurd (hran.symm.trans h) Bool.false_ne_true
  cases haccepts with
  | arg | env =>
      exact ⟨hlive, hbounded, by simp [hstage], fun _ _ => hzero,
        fun _ => hfresh⟩
  | preopen =>
      rename_i hostDir guestPath dir fd
      have hnew : find fd s.table = none := by
        simpa [HostCall.possible] using hpossible
      refine ⟨?_, hbounded, by simp [hstage], fun _ _ => hzero,
        fun _ => hfresh⟩
      have hput := @held_put_new _ _ _ Entry.slot (.dir dir false) hnew
      exact hlive.trans hput.symm
  | stdin =>
      rename_i data
      have hdrop := Sandbox.dropAt_eq hlive 0
      have hput := @held_put _ s.table 0 Entry.slot (.stdin data)
      have hnone : s.dropAt 0 = 0 := by
        have hle := @held_erase_le _ s.table 0 Entry.slot
        omega
      exact ⟨hdrop.trans hput.symm, hnone.trans_le (Nat.zero_le _),
        by simp [hstage], fun _ _ => hnone, fun _ => hfresh⟩
  | run =>
      exact ⟨hlive, hbounded, by simp, by simp, by simp⟩

/-- The life of the sandbox and its slots, over one step. -/
theorem Sandbox.SlotInv.step (hinv : s.SlotInv) (hlife : s.LifeInv)
    {action : WasiAction} (hstep : s.step action = some next) :
    next.SlotInv := by
  have hboth : next.LifeInv ∧ next.SlotInv := by
    refine Sandbox.step_rule (fun s => s.LifeInv ∧ s.SlotInv)
      ?_ ?_ ?_ ?_ ?_ ⟨hlife, hinv⟩ hstep
    · rintro s call next ⟨hlife, hinv⟩ halive hserve
      refine ⟨?_, hinv.serve halive hserve⟩
      rw [Sandbox.serve_frame hserve]
      exact hlife.guest _ _ _ _ _ _ _
    · rintro s time elapsed ⟨hlife, hinv⟩
      exact ⟨hlife.guest _ _ _ _ _ _ _, hinv.time time elapsed⟩
    · rintro s outcome started next ⟨hlife, hinv⟩ hleaves hfinish
      exact ⟨hlife.finish hleaves hfinish, hinv.finish hlife hleaves hfinish⟩
    · rintro s ⟨hlife, hinv⟩ hstage
      exact ⟨hlife.panic hstage, hinv.live, hinv.bounded, by simp, by simp,
        by simp⟩
    · rintro s call next ⟨hlife, hinv⟩ hstage hran hpossible haccepts
      exact ⟨hlife.accepts hran haccepts,
        hinv.accepts hstage hran hpossible haccepts⟩
  exact hboth.2

theorem Sandbox.slotInv_of_reaches {fuel memoryLimit : ℕ}
    (hreach : wasiSystem.Reaches (.new fuel memoryLimit) s) : s.SlotInv := by
  let both := fun next : Sandbox => next.LifeInv ∧ next.SlotInv
  have hboth : both s := by
    refine @System.Reaches.invariant _ _ _ both ?_ _ _ hreach
      ⟨Sandbox.new_lifeInv fuel memoryLimit,
        Sandbox.new_slotInv fuel memoryLimit⟩
    rintro before action next ⟨hlife, hslots⟩ hstep
    exact ⟨hlife.step hstep, hslots.step hlife hstep⟩
  exact hboth.2

end Slots

/-! ## What is reached was given -/

/-- The object was preopened, or opened through one that was. -/
def Given (preopens : List (ℕ × String)) (log : List HostEvent)
    (object : OpenResult) : Prop :=
  (∃ dir, object = .dir dir ∧ dir ∈ preopens.map Prod.fst) ∨
    ∃ inner ask, HostEvent.dir inner ask ∈ log ∧ ask.opened = some object

/-- A `CountedFile` passes on nothing that changes the file. -/
theorem FileCall.readOnly_of_delegated {call : FileCall}
    (hpassed : call.delegated = true) : call.readOnly = true := by
  cases call with
  | setFilestatSize | setTimes | writeVectored | writeVectoredAt =>
      cases hpassed
  | _ => rfl

/-- A call reads an object that the guest has been given. -/
def Confined (preopens : List (ℕ × String)) (log : List HostEvent) :
    HostEvent → Prop
  | .dir inner ask =>
      ask.call.readOnly = true ∧ Given preopens log (.dir inner)
  | .file inner call =>
      (call.delegated = true ∧ call.readOnly = true) ∧
        Given preopens log (.file inner)

structure Sandbox.ReachInv (s : Sandbox) : Prop where
  asked : ∀ before event after, s.asked = before ++ event :: after →
    Confined s.preopens before event
  table : ∀ entry ∈ s.table, ∀ object, entry.2.object = some object →
    Given s.preopens s.asked object

section Reach

variable {s next : Sandbox} {preopens more : List (ℕ × String)}
  {log new : List HostEvent}

theorem Given.mono {object : OpenResult} (hgiven : Given preopens log object)
    (more : List (ℕ × String)) (new : List HostEvent) :
    Given (preopens ++ more) (log ++ new) object := by
  rcases hgiven with ⟨dir, rfl, hmem⟩ | ⟨inner, ask, hmem, hopened⟩
  · refine .inl ⟨dir, rfl, ?_⟩
    rw [List.map_append]
    exact List.mem_append_left _ hmem
  · exact .inr ⟨inner, ask, List.mem_append_left _ hmem, hopened⟩

theorem Confined.mono {event : HostEvent}
    (hconfined : Confined preopens log event) (more : List (ℕ × String))
    (new : List HostEvent) : Confined (preopens ++ more) (log ++ new) event := by
  cases event with
  | dir inner ask => exact hconfined.imp_right fun h => h.mono more new
  | file inner call => exact hconfined.imp_right fun h => h.mono more new

/-- Calls that follow a log of confined calls. -/
theorem confined_append
    (hlog : ∀ before event after, log = before ++ event :: after →
      Confined preopens before event)
    (hnew : ∀ event ∈ new, Confined preopens log event) :
    ∀ before event after, log ++ new = before ++ event :: after →
      Confined preopens before event := by
  intro before event after hsplit
  rcases List.append_eq_append_iff.mp hsplit with
    ⟨middle, rfl, hrest⟩ | ⟨middle, rfl, hrest⟩
  · have hmem : event ∈ new := by
      rw [hrest]
      exact List.mem_append_right _ List.mem_cons_self
    simpa using (hnew event hmem).mono [] middle
  · cases middle with
    | nil =>
        have hmem : event ∈ new := by
          rw [List.nil_append] at hrest
          exact hrest ▸ List.mem_cons_self
        simpa using hnew event hmem
    | cons head rest =>
        obtain ⟨rfl, -⟩ := List.cons.inj hrest
        exact hlog before event rest rfl

theorem Sandbox.new_reachInv (fuel memoryLimit : ℕ) :
    (Sandbox.new fuel memoryLimit).ReachInv where
  asked before event after hsplit := by simp [Sandbox.new] at hsplit
  table entry hmem object hobject := by
    have hnone :=
      (Sandbox.new_slotInv fuel memoryLimit).start rfl entry hmem
    rw [hnone] at hobject
    cases hobject

theorem Sandbox.ReachInv.serve (hinv : s.ReachInv) {call : GuestCall}
    (hserve : s.serve call = some next) : next.ReachInv := by
  obtain ⟨hasked, htable⟩ := hinv
  cases call with
  | write fd bufs =>
      simp only [Sandbox.serve] at hserve
      split at hserve <;> cases hserve
      exact ⟨hasked, htable⟩
  | dir fd host call fresh =>
      simp only [Sandbox.serve] at hserve
      split at hserve
      · rename_i inner slot hfind
        have hdoes := ReadOnlyDir.call_does host s.live call
        have hgiven : Given s.preopens s.asked (.dir inner) :=
          htable (fd, .dir inner slot) (mem_of_find hfind) _ rfl
        have hnew : ∀ event ∈
            (ReadOnlyDir.call host s.live call).asked.map (.dir inner),
            Confined s.preopens s.asked event := by
          intro event hmem
          obtain ⟨ask, hask, rfl⟩ := List.mem_map.mp hmem
          exact ⟨hdoes.readOnly hask, hgiven⟩
        have hasked' := confined_append hasked hnew
        have htable' : ∀ entry ∈ s.table, ∀ object,
            entry.2.object = some object → Given s.preopens
              (s.asked ++ (ReadOnlyDir.call host s.live call).asked.map
                (.dir inner)) object := by
          intro entry hmem object hobject
          simpa using (htable entry hmem object hobject).mono [] _
        split at hserve
        · rename_i result hanswer
          split at hserve <;> cases hserve
          refine ⟨hasked', ?_⟩
          intro entry hmem object hobject
          rcases mem_of_mem_put hmem with rfl | hold
          · obtain ⟨⟨ask, hask, hopened⟩, -⟩ := hdoes.opened hanswer
            have hsame : object = result := by
              cases result <;> exact (Option.some.inj hobject).symm
            refine .inr ⟨inner, ask, ?_, hsame ▸ hopened⟩
            exact List.mem_append_right _ (List.mem_map_of_mem hask)
          · exact htable' entry hold object hobject
        · cases hserve
          exact ⟨hasked', htable'⟩
      · cases hserve
  | file fd call =>
      simp only [Sandbox.serve] at hserve
      split at hserve <;> cases hserve
      rename_i inner hfind
      have hgiven : Given s.preopens s.asked (.file inner) :=
        htable (fd, .file inner) (mem_of_find hfind) _ rfl
      by_cases hpassed : call.delegated = true
      · simp only [if_pos hpassed]
        refine ⟨confined_append hasked ?_, ?_⟩
        · intro event hmem
          rw [List.mem_singleton.mp hmem]
          exact ⟨⟨hpassed, FileCall.readOnly_of_delegated hpassed⟩, hgiven⟩
        · intro entry hmem object hobject
          simpa using (htable entry hmem object hobject).mono [] _
      · simp only [if_neg hpassed]
        exact ⟨hasked, htable⟩
  | close fd =>
      simp only [Sandbox.serve] at hserve
      split at hserve <;> cases hserve
      exact ⟨hasked, fun entry hmem =>
        htable entry (mem_of_mem_erase hmem)⟩
  | renumber source target =>
      simp only [Sandbox.serve] at hserve
      split at hserve
      · rename_i entry old hsource htarget
        split_ifs at hserve <;> cases hserve
        · exact ⟨hasked, htable⟩
        · refine ⟨hasked, ?_⟩
          intro other hmem
          rcases mem_of_mem_put hmem with rfl | hold
          · exact htable (source, entry) (mem_of_find hsource)
          · exact htable other (mem_of_mem_erase hold)
      · cases hserve
  | other =>
      cases hserve
      exact ⟨hasked, htable⟩

theorem freshTable_object {entry : ℕ × Entry} (hmem : entry ∈ freshTable) :
    entry.2.object = none := by
  revert entry
  decide

theorem Sandbox.ReachInv.finish (hinv : s.ReachInv)
    {outcome : Except WasmError ℕ} {started : Stage}
    (hfinish : s.finish outcome started = some next) : next.ReachInv := by
  obtain ⟨hasked, htable⟩ := hinv
  have hfresh : ∀ entry ∈ freshTable, ∀ object,
      entry.2.object = some object → Given s.preopens s.asked object := by
    intro entry hmem object hobject
    rw [freshTable_object hmem] at hobject
    cases hobject
  rcases Sandbox.finish_cases hfinish with
    ⟨-, ⟨error, -, rfl⟩ | ⟨-, rfl⟩⟩ | ⟨-, rfl⟩
  · exact ⟨hasked, hfresh⟩
  · exact ⟨hasked, htable⟩
  · exact ⟨hasked, hfresh⟩

theorem Sandbox.ReachInv.accepts (hinv : s.ReachInv) {call : HostCall}
    (haccepts : s.Accepts call next) : next.ReachInv := by
  obtain ⟨hasked, htable⟩ := hinv
  cases haccepts with
  | arg | env | run => exact ⟨hasked, htable⟩
  | preopen =>
      rename_i hostDir guestPath dir fd
      constructor
      · intro before event after hsplit
        have hconfined := (hasked before event after hsplit).mono
          [(dir, guestPath)] []
        rwa [List.append_nil] at hconfined
      · intro entry hmem object hobject
        rcases mem_of_mem_put hmem with rfl | hold
        · cases hobject
          exact .inl ⟨dir, rfl, by simp⟩
        · have hgiven := (htable entry hold object hobject).mono
            [(dir, guestPath)] []
          rwa [List.append_nil] at hgiven
  | stdin =>
      refine ⟨hasked, ?_⟩
      intro entry hmem object hobject
      rcases mem_of_mem_put hmem with rfl | hold
      · cases hobject
      · exact htable entry hold object hobject

theorem Sandbox.ReachInv.step (hinv : s.ReachInv) {action : WasiAction}
    (hstep : s.step action = some next) : next.ReachInv := by
  refine Sandbox.step_rule Sandbox.ReachInv ?_ ?_ ?_ ?_ ?_ hinv hstep
  · intro s call next hinv _ hserve
    exact hinv.serve hserve
  · intro s time elapsed hinv
    exact ⟨hinv.asked, hinv.table⟩
  · intro s outcome started next hinv _ hfinish
    exact hinv.finish hfinish
  · intro s hinv _
    exact ⟨hinv.asked, hinv.table⟩
  · intro s call next hinv _ _ _ haccepts
    exact hinv.accepts haccepts

theorem Sandbox.reachInv_of_reaches {fuel memoryLimit : ℕ}
    (hreach : wasiSystem.Reaches (.new fuel memoryLimit) s) : s.ReachInv :=
  hreach.invariant (fun _ _ _ hinv hstep => hinv.step hstep)
    (Sandbox.new_reachInv fuel memoryLimit)

end Reach

end Wasi

open Wasi DescriptorTable TransitionSystem in
/-- The sandbox counts the descriptors that its guest holds through its
directories exactly: at most 256, none whenever its code is not running, and
none of the table of the guest is left after the run.  A panic in the run is
the exception: it leaves count and table as they were.  So an open that the
host grants is refused with `EMFILE` only when 256 are held. -/
theorem wasi_descriptors_counted (module : Except String (Option FuncType))
    (fuel memoryLimit : ℕ) (loaded s : Sandbox)
    (hload : load module fuel memoryLimit = .ok loaded)
    (hreach : wasiSystem.Reaches loaded s) :
    s.live = held s.table Entry.slot ∧ s.live ≤ OPEN_DESCRIPTORS ∧
    (s.stage ≠ .running → s.stage ≠ .poisoned → s.live = 0) ∧
    (s.stage = .idle → s.ran = true → s.table = freshTable) ∧
    ∀ (host : DirHost) (follow read : Bool) (path : String)
      (oflags : OFlags) (fdflags : FdFlags) (kind : FileType)
      (result : OpenResult), oflags.changes = false →
      host.getPathFilestat path follow = .ok kind →
      kind = .regularFile ∨ kind = .directory ∨ kind = .symbolicLink →
      host.openFile follow path oflags read false fdflags = .ok result →
        (ReadOnlyDir.call host s.live
          (.openFile follow path oflags read false fdflags)).answer =
          if held s.table Entry.slot < OPEN_DESCRIPTORS
            then .ok (.opened result) else .error .mfile := by
  rw [load_ok hload] at hreach
  have hinv := Sandbox.slotInv_of_reaches hreach
  refine ⟨hinv.live, hinv.bounded, hinv.quiet, hinv.spent, ?_⟩
  intro host follow read path oflags fdflags kind result hchanges hstat hkind
    hopen
  rw [← hinv.live]
  exact ReadOnlyDir.openFile_granted hchanges hstat hkind hopen

open Wasi in
/-- A directory of the host with one file. -/
def oneFile : DirHost where
  openFile _ _ _ _ _ _ := .ok (.file 9)
  readdir _ := .ok ["a"]
  readLink _ := .error (.other 28)
  getFilestat := .ok .directory
  getPathFilestat _ _ := .ok .regularFile

open Wasi in
/-- A guest that opens the file, reads it and is left with it open. -/
def readingRun : List WasiAction :=
  let plain : OFlags := ⟨false, false, false, false⟩
  let flags : FdFlags := ⟨false, false, false, false, false⟩
  [.ends .returns, .host (.preopen "/data" (.ok 7) "/" (.ok 3)) false,
    .host .run false,
    .guest (.dir 3 oneFile (.openFile true "a" plain true false flags) 4) 0 1,
    .guest (.file 4 (.readVectored [16])) 2 3,
    .guest (.dir 3 oneFile (.unlinkFile "a") 5) 4 5]

open Wasi in
theorem wasi_descriptors_counted_reading :
    ∃ s later, wasiSystem.run (.new 10 64) readingRun = some s ∧
      wasiSystem.run s [.ends (.traps "unreachable")] = some later ∧
      s.live = 1 ∧ later.stage = .idle ∧ later.live = 0 ∧
      later.table = freshTable := by
  have hcounted := wasi_descriptors_counted commandModule 10 64 _ _ rfl
    ⟨readingRun ++ [.ends (.traps "unreachable")], rfl⟩
  refine ⟨_, _, rfl, rfl, rfl, rfl, ?_, hcounted.2.2.2.1 rfl rfl⟩
  exact hcounted.2.2.1 Stage.noConfusion Stage.noConfusion

open Wasi TransitionSystem in
/-- A sandboxed guest reads what it was given, and nothing else: every call
that reaches a directory or a file of the host is one that cannot change it,
on a directory that was preopened for the guest or on what an earlier call of
the guest has opened. -/
theorem wasi_guest_confined (module : Except String (Option FuncType))
    (fuel memoryLimit : ℕ) (loaded s : Sandbox)
    (hload : load module fuel memoryLimit = .ok loaded)
    (hreach : wasiSystem.Reaches loaded s)
    (before : List HostEvent) (event : HostEvent) (after : List HostEvent)
    (hsplit : s.asked = before ++ event :: after) :
    match event with
    | .dir inner ask => ask.call.readOnly = true ∧
        (inner ∈ s.preopens.map Prod.fst ∨
          ∃ outer earlier, HostEvent.dir outer earlier ∈ before ∧
            earlier.opened = some (.dir inner))
    | .file inner call =>
        (call.delegated = true ∧ call.readOnly = true) ∧
        ∃ outer earlier, HostEvent.dir outer earlier ∈ before ∧
          earlier.opened = some (.file inner) := by
  rw [load_ok hload] at hreach
  have hconfined := (Sandbox.reachInv_of_reaches hreach).asked before event
    after hsplit
  cases event with
  | dir inner ask =>
      obtain ⟨hread, ⟨dir, heq, hmem⟩ | hopened⟩ := hconfined
      · cases heq
        exact ⟨hread, .inl hmem⟩
      · exact ⟨hread, .inr hopened⟩
  | file inner call =>
      obtain ⟨hread, ⟨dir, heq, -⟩ | hopened⟩ := hconfined
      · cases heq
      · exact ⟨hread, hopened⟩

open Wasi in
/-- The read of the file rests on the open, and the unlink has not reached
the host. -/
theorem wasi_guest_confined_reading :
    ∃ s, wasiSystem.run (.new 10 64) readingRun = some s ∧
      s.asked = s.asked.dropLast ++ [.file 9 (.readVectored [16])] ∧
      ∃ outer earlier, HostEvent.dir outer earlier ∈ s.asked.dropLast ∧
        earlier.opened = some (.file 9) := by
  refine ⟨_, rfl, rfl, ?_⟩
  exact (wasi_guest_confined commandModule 10 64 _ _ rfl ⟨readingRun, rfl⟩ _
    (.file 9 (.readVectored [16])) [] rfl).2

end Rulisp
