import Rulisp.CallbackThreads

/-!
# Invocations of stored callbacks

Ids outlive their entries on the Rust side, and any thread may register,
unregister, finalize or invoke between any two steps of another.  What the
registry holds is what the history says: the closures registered and not
removed since.  The stored trampoline touches nothing of a borrowed callback
around it.
-/

namespace Rulisp

open TransitionSystem

section Histories

variable {L C K : Type}

def Registered (log : List (CallbackEvent L C K)) (id : ℕ) (closure : K) :
    Prop :=
  .registered id closure ∈ log

/-- The token of `id` was unregistered or finalized. -/
def Removed (log : List (CallbackEvent L C K)) (id : ℕ) : Prop :=
  .finalized id ∈ log ∨ ∃ removed, .unregistered id removed ∈ log

def CallbackEvent.registeredId : CallbackEvent L C K → Option ℕ
  | .registered id _ => some id
  | _ => none

/-- The id that an `unregister-callback` returning true has removed. -/
def CallbackEvent.unregisteredId : CallbackEvent L C K → Option ℕ
  | .unregistered id true => some id
  | _ => none

/-- The ids given out, in order. -/
def registeredIds (log : List (CallbackEvent L C K)) : List ℕ :=
  log.filterMap CallbackEvent.registeredId

/-- The ids for which `unregister-callback` returned true, in order. -/
def unregisteredIds (log : List (CallbackEvent L C K)) : List ℕ :=
  log.filterMap CallbackEvent.unregisteredId

/-- What has to precede an event: a lookup finds what is registered under the
id and not removed, nothing else; an invocation ends after its lookup, and
with status 0 only if that has found something. -/
def StoredAdmits (before : List (CallbackEvent L C K)) :
    CallbackEvent L C K → Prop
  | .observed _ => True
  | .registered id _ => ∀ closure, ¬ Registered before id closure
  | .unregistered id removed => removed = true → ¬ Removed before id
  | .finalized _ => True
  | .lookedUp id found => ∀ closure, found = some closure ↔
      Registered before id.toNat closure ∧ ¬ Removed before id.toNat
  | .answered id ran status =>
      .lookedUp id ran ∈ before ∧ (ran = none → status ≠ 0)

/-- The event is none of the registry's. -/
def CallbackEvent.Silent (event : CallbackEvent L C K) : Prop :=
  (∀ id closure, event ≠ .registered id closure) ∧
    ∀ id, ¬ Removed [event] id

theorem registered_append {log : List (CallbackEvent L C K)}
    {event : CallbackEvent L C K} {id : ℕ} {closure : K} :
    Registered (log ++ [event]) id closure ↔
      Registered log id closure ∨ event = .registered id closure := by
  simp [Registered, eq_comm]

theorem removed_append {log : List (CallbackEvent L C K)}
    {event : CallbackEvent L C K} {id : ℕ} :
    Removed (log ++ [event]) id ↔ Removed log id ∨ Removed [event] id := by
  simp only [Removed, List.mem_append, exists_or]
  tauto

theorem registeredIds_append (log : List (CallbackEvent L C K))
    (event : CallbackEvent L C K) :
    registeredIds (log ++ [event]) =
      registeredIds log ++ event.registeredId.toList := by
  cases hid : event.registeredId <;> simp [registeredIds, hid]

theorem unregisteredIds_append (log : List (CallbackEvent L C K))
    (event : CallbackEvent L C K) :
    unregisteredIds (log ++ [event]) =
      unregisteredIds log ++ event.unregisteredId.toList := by
  cases hid : event.unregisteredId <;> simp [unregisteredIds, hid]

theorem mem_registeredIds {log : List (CallbackEvent L C K)} {id : ℕ}
    {closure : K} (hregistered : Registered log id closure) :
    id ∈ registeredIds log :=
  List.mem_filterMap.mpr ⟨_, hregistered, rfl⟩

theorem removed_of_mem_unregisteredIds {log : List (CallbackEvent L C K)}
    {id : ℕ} (hid : id ∈ unregisteredIds log) : Removed log id := by
  obtain ⟨event, hevent, hid⟩ := List.mem_filterMap.mp hid
  cases event with
  | unregistered other removed =>
      cases removed with
      | true =>
          cases hid
          exact .inr ⟨true, hevent⟩
      | false => cases hid
  | observed record => cases hid
  | registered other closure => cases hid
  | finalized other => cases hid
  | lookedUp other found => cases hid
  | answered other ran status => cases hid

theorem CallbackEvent.Silent.unregisteredId {event : CallbackEvent L C K}
    (hsilent : event.Silent) : event.unregisteredId = none := by
  cases event with
  | unregistered id removed =>
      exact absurd (.inr ⟨removed, List.mem_singleton_self _⟩) (hsilent.2 id)
  | observed record => rfl
  | registered other closure => rfl
  | finalized other => rfl
  | lookedUp other found => rfl
  | answered other ran status => rfl

theorem CallbackEvent.Silent.registeredId {event : CallbackEvent L C K}
    (hsilent : event.Silent) : event.registeredId = none := by
  cases event with
  | registered id closure => exact absurd rfl (hsilent.1 id closure)
  | observed record => rfl
  | unregistered other removed => rfl
  | finalized other => rfl
  | lookedUp other found => rfl
  | answered other ran status => rfl

/-! ## The registry and its history -/

/-- The registry is what the history says. -/
structure RegistryHistory (stored : StoredCallbacks K)
    (log : List (CallbackEvent L C K)) : Prop where
  ids : registeredIds log = List.range' 1 stored.nextId
  unique : ∀ id closure other, Registered log id closure →
    Registered log id other → other = closure
  table : ∀ id closure, stored.table id = some closure ↔
    Registered log id closure ∧ ¬ Removed log id
  removedIssued : ∀ id, Removed log id → id ≤ stored.nextId
  unregisteredOnce : (unregisteredIds log).Nodup
  guarded : Guarded StoredAdmits log

variable {stored stored' : StoredCallbacks K}
  {log : List (CallbackEvent L C K)} {event : CallbackEvent L C K}

theorem registryHistory_empty :
    RegistryHistory (.empty : StoredCallbacks K)
      ([] : List (CallbackEvent L C K)) where
  ids := rfl
  unique := fun _ _ _ hregistered => by cases hregistered
  table := by simp [StoredCallbacks.empty, Registered]
  removedIssued := by simp [Removed]
  unregisteredOnce := List.nodup_nil
  guarded := Guarded.nil _

theorem RegistryHistory.le_nextId (hhistory : RegistryHistory stored log)
    {id : ℕ} {closure : K} (hregistered : Registered log id closure) :
    id ≤ stored.nextId := by
  have hid := mem_registeredIds hregistered
  rw [hhistory.ids, List.mem_range'_1] at hid
  omega

theorem RegistryHistory.silent (hhistory : RegistryHistory stored log)
    (hsilent : event.Silent) (hadmits : StoredAdmits log event) :
    RegistryHistory stored (log ++ [event]) := by
  have hregistered : ∀ id closure, Registered (log ++ [event]) id closure ↔
      Registered log id closure := by
    intro id closure
    rw [registered_append, or_iff_left (hsilent.1 id closure)]
  have hremoved : ∀ id, Removed (log ++ [event]) id ↔ Removed log id := by
    intro id
    rw [removed_append, or_iff_left (hsilent.2 id)]
  constructor
  · rw [registeredIds_append, hsilent.registeredId, hhistory.ids]
    exact List.append_nil _
  · simpa only [hregistered] using hhistory.unique
  · simpa only [hregistered, hremoved] using hhistory.table
  · simpa only [hremoved] using hhistory.removedIssued
  · rw [unregisteredIds_append, hsilent.unregisteredId]
    exact (List.append_nil _).symm ▸ hhistory.unregisteredOnce
  · exact hhistory.guarded.append hadmits

theorem RegistryHistory.callback (hhistory : RegistryHistory stored log)
    (closure : K) :
    RegistryHistory (stored.callback closure).2
      (log ++ [.registered (stored.nextId + 1) closure]) := by
  have hnew : ∀ other, ¬ Registered log (stored.nextId + 1) other := by
    intro other hregistered
    have hle := hhistory.le_nextId hregistered
    omega
  have hkept : ¬ Removed log (stored.nextId + 1) := by
    intro hremoved
    have hle := hhistory.removedIssued _ hremoved
    omega
  have hremoved : ∀ id, Removed
      (log ++ [.registered (stored.nextId + 1) closure]) id ↔
        Removed log id := by
    intro id
    rw [removed_append]
    simp [Removed]
  constructor
  · rw [registeredIds_append, hhistory.ids, StoredCallbacks.callback_nextId,
      List.range'_1_concat, Nat.add_comm 1]
    rfl
  · intro id left right hleft hright
    rw [registered_append] at hleft hright
    rcases hleft with hleft | hleft <;> rcases hright with hright | hright
    · exact hhistory.unique id left right hleft hright
    · cases hright
      exact absurd hleft (hnew left)
    · cases hleft
      exact absurd hright (hnew right)
    · cases hleft
      cases hright
      rfl
  · intro id other
    rw [StoredCallbacks.callback_table, registered_append, hremoved]
    by_cases hid : id = stored.nextId + 1
    · subst hid
      simp [hnew, hkept]
    · have hne : ¬ CallbackEvent.registered (L := L) (C := C)
          (stored.nextId + 1) closure = .registered id other := by
        rintro ⟨⟩
        exact hid rfl
      rw [Function.update_of_ne hid, hhistory.table]
      simp only [hne, or_false]
  · intro id hid
    rw [hremoved] at hid
    have hle := hhistory.removedIssued id hid
    rw [StoredCallbacks.callback_nextId]
    omega
  · rw [unregisteredIds_append]
    exact (List.append_nil _).symm ▸ hhistory.unregisteredOnce
  · exact hhistory.guarded.append hnew

/-- An event that removes `id`, the table following. -/
theorem RegistryHistory.remove (hhistory : RegistryHistory stored log)
    (stored' : StoredCallbacks K) (event : CallbackEvent L C K) {id : ℕ}
    (hissued : id ≤ stored.nextId)
    (hnextId : stored'.nextId = stored.nextId)
    (htable : stored'.table = Function.update stored.table id none)
    (hregistered : ∀ other closure, event ≠ .registered other closure)
    (hremoved : ∀ other, Removed [event] other ↔ other = id)
    (honce : (unregisteredIds (log ++ [event])).Nodup)
    (hadmits : StoredAdmits log event) :
    RegistryHistory stored' (log ++ [event]) := by
  have hsame : ∀ other closure,
      Registered (log ++ [event]) other closure ↔
        Registered log other closure := by
    intro other closure
    rw [registered_append, or_iff_left (hregistered other closure)]
  constructor
  · rw [hnextId, ← hhistory.ids]
    have hnone : event.registeredId = none := by
      cases event with
      | registered other closure =>
          exact absurd rfl (hregistered other closure)
      | observed record => rfl
      | unregistered other removed => rfl
      | finalized other => rfl
      | lookedUp other found => rfl
      | answered other ran status => rfl
    rw [registeredIds_append, hnone]
    exact List.append_nil _
  · simpa only [hsame] using hhistory.unique
  · intro other closure
    rw [htable, hsame, removed_append, hremoved]
    by_cases hother : other = id
    · subst hother
      simp
    · rw [Function.update_of_ne hother, hhistory.table]
      simp only [hother, or_false]
  · intro other hother
    rw [removed_append, hremoved] at hother
    rcases hother with hother | rfl
    · rw [hnextId]
      exact hhistory.removedIssued other hother
    · rwa [hnextId]
  · exact honce
  · exact hhistory.guarded.append hadmits

theorem RegistryHistory.locked (hhistory : RegistryHistory stored log)
    (hsection : LockedSection stored stored' event) :
    RegistryHistory stored' (log ++ [event]) := by
  cases hsection with
  | callback closure => exact hhistory.callback closure
  | unregister id htoken =>
      have hkept : (stored.table id).isSome = true → ¬ Removed log id := by
        intro hsome
        obtain ⟨closure, hclosure⟩ := Option.isSome_iff_exists.mp hsome
        exact ((hhistory.table id closure).mp hclosure).2
      apply hhistory.remove (stored.unregisterCallback id htoken).2
        (.unregistered id (stored.table id).isSome)
        (stored.le_nextId_of_token htoken)
        (stored.unregisterCallback_nextId htoken)
        (stored.unregisterCallback_table htoken)
        (fun _ _ => by simp) (fun other => by simp [Removed, eq_comm])
      · rw [unregisteredIds_append]
        cases hsome : (stored.table id).isSome with
        | false => exact (List.append_nil _).symm ▸ hhistory.unregisteredOnce
        | true =>
            have hnotmem : id ∉ unregisteredIds log := fun hid =>
              hkept hsome (removed_of_mem_unregisteredIds hid)
            have honce := hhistory.unregisteredOnce.concat hnotmem
            rwa [List.concat_eq_append] at honce
      · exact hkept
  | finalize id htoken =>
      apply hhistory.remove (stored.finalize id htoken) (.finalized id)
        (stored.le_nextId_of_token htoken) (stored.finalize_nextId htoken)
        (stored.finalize_table htoken)
        (fun _ _ => by simp) (fun other => by simp [Removed, eq_comm])
      · rw [unregisteredIds_append]
        exact (List.append_nil _).symm ▸ hhistory.unregisteredOnce
      · trivial

end Histories

/-! ## The stored trampoline -/

section Trampoline

variable {L C K : Type}

/-- The steps of `StoredCallback::call` and the stored trampoline. -/
def ThreadMove.ofStored : ThreadMove L C K → Bool
  | .invokeStored _ | .lookup | .storedReturn _ => true
  | _ => false

/-- The same thread with other bindings and tunnel flags. -/
def ThreadLocals.withBindings (locals : ThreadLocals L C K)
    (live : Option K) (stash : Option C) (tunnel : L → Bool) :
    ThreadLocals L C K :=
  { locals with
    liveCallback := live
    callbackStash := stash
    tunnel := tunnel }

/-- With nothing found the answer is nonzero. -/
theorem storedStatus_none_ne_zero (failed : Bool) :
    storedStatus (none : Option K) failed ≠ 0 := by
  cases failed <;> simp [storedStatus]

variable [DecidableEq L]

/-- The stored trampoline neither reads nor sets the bindings and the flags. -/
theorem ThreadLocals.step_withBindings (stored : StoredCallbacks K)
    (locals : ThreadLocals L C K) {move : ThreadMove L C K}
    (hstored : move.ofStored = true) (live : Option K) (stash : Option C)
    (tunnel : L → Bool) :
    (locals.withBindings live stash tunnel).step stored move =
      (locals.step stored move).map fun (next, events) =>
        (next.withBindings live stash tunnel, events) := by
  cases locals with
  | mk frames liveCallback callbackStash flags lastError =>
      cases move with
      | invokeStored id =>
          cases hrust : inRust frames with
          | true => simp [step, withBindings, moveTo, hrust]
          | false => simp [step, withBindings, hrust]
      | lookup =>
          cases frames with
          | nil => rfl
          | cons frame below => cases frame <;> rfl
      | storedReturn failed =>
          cases frames with
          | nil => rfl
          | cons frame below => cases frame <;> rfl
      | _ => cases hstored

/-- A stored trampoline on the stack was there before or has just looked its
id up. -/
theorem ThreadLocals.Turn.stored_mem {stored : StoredCallbacks K}
    {locals next : ThreadLocals L C K} {move : ThreadMove L C K}
    {events : List (CallbackEvent L C K)}
    (hturn : locals.Turn stored move next events) {id : UInt64}
    {found : Option K} (hmem : .stored id found ∈ next.frames) :
    .stored id found ∈ locals.frames ∨ .lookedUp id found ∈ events := by
  cases hturn with
  | begin wrapper callback hlisp =>
      cases callback <;> exact .inl (by simpa [beginCall, moveTo] using hmem)
  | exit call phase below hframes =>
      rw [hframes]
      exact .inl (List.mem_cons_of_mem _ hmem)
  | proceed call before after below tunnel hframes hpending =>
      rw [hframes]
      exact .inl (by simpa [moveTo] using hmem)
  | fail call before after below error hframes hpending =>
      rw [hframes]
      exact .inl (by simpa [ThreadLocals.setLastError] using hmem)
  | branch call status below hframes =>
      rw [hframes]
      exact .inl (by simpa [moveTo] using hmem)
  | invoke call phase below hframes hcallback hcalls =>
      exact .inl (by simpa [moveTo] using hmem)
  | trampolineReturn library closure below failure hframes =>
      rw [hframes]
      cases failure with
      | none => exact .inl (List.mem_cons_of_mem _ hmem)
      | some condition =>
          refine .inl (List.mem_cons_of_mem _ ?_)
          cases below with
          | nil => exact hmem
          | cons frame below =>
              cases frame with
              | wrapper call phase =>
                  exact List.mem_cons_of_mem _
                    (List.mem_of_ne_of_mem (by simp) hmem)
              | trampoline library closure => exact hmem
              | storedLookup id => exact hmem
              | stored id found => exact hmem
              | foreign => exact hmem
  | invokeStored id hcalls =>
      exact .inl (by simpa [moveTo] using hmem)
  | lookup id below hframes =>
      rcases List.mem_cons.mp hmem with hnew | hbelow
      · cases hnew
        exact .inr (List.mem_singleton_self _)
      · rw [hframes]
        exact .inl (List.mem_cons_of_mem _ hbelow)
  | storedReturn id found below failed hframes =>
      rw [hframes]
      exact .inl (List.mem_cons_of_mem _ hmem)
  | enterForeign hlisp => exact .inl (by simpa [moveTo] using hmem)
  | leaveForeign below hframes =>
      rw [hframes]
      exact .inl (List.mem_cons_of_mem _ hmem)

end Trampoline

/-! ## Over every run -/

section Runs

variable {n : ℕ} {L C K : Type}

/-- What the registry holds and what the trampolines run is on record. -/
structure CallbackState.Recorded (state : CallbackState n L C K) : Prop where
  history : RegistryHistory state.stored state.log
  running : ∀ thread id found,
    .stored id found ∈ (state.threads thread).frames →
      .lookedUp id found ∈ state.log

theorem CallbackState.recorded_initial :
    (initial n L C K).Recorded where
  history := registryHistory_empty
  running := fun _ _ _ hmem => by cases hmem

variable [DecidableEq L]

theorem CallbackState.Recorded.thread {state : CallbackState n L C K}
    (hrecorded : state.Recorded) (thread : Fin n) {move : ThreadMove L C K}
    {locals : ThreadLocals L C K} {events : List (CallbackEvent L C K)}
    (hturn : (state.threads thread).Turn state.stored move locals events) :
    (state.advance thread locals events).Recorded where
  history := by
    have hsame : RegistryHistory state.stored (state.log ++ []) :=
      (List.append_nil state.log).symm ▸ hrecorded.history
    cases hturn with
    | branch call status below hframes =>
        exact hrecorded.history.silent
          ⟨fun _ _ => by simp, fun _ => by simp [Removed]⟩ trivial
    | lookup id below hframes =>
        exact hrecorded.history.silent
          ⟨fun _ _ => by simp, fun _ => by simp [Removed]⟩
          (hrecorded.history.table id.toNat)
    | storedReturn id found below failed hframes =>
        have hlooked := hrecorded.running thread id found
          (hframes ▸ List.mem_cons_self)
        exact hrecorded.history.silent
          ⟨fun _ _ => by simp, fun _ => by simp [Removed]⟩
          ⟨hlooked, fun hnone => hnone ▸ storedStatus_none_ne_zero failed⟩
    | begin wrapper callback hlisp => exact hsame
    | exit call phase below hframes => exact hsame
    | proceed call before after below tunnel hframes hpending => exact hsame
    | fail call before after below error hframes hpending => exact hsame
    | invoke call phase below hframes hcallback hcalls => exact hsame
    | trampolineReturn library closure below failure hframes => exact hsame
    | invokeStored id hcalls => exact hsame
    | enterForeign hlisp => exact hsame
    | leaveForeign below hframes => exact hsame
  running := by
    intro other id found hmem
    by_cases hother : other = thread
    · subst hother
      simp only [advance, Function.update_self] at hmem
      rcases hturn.stored_mem hmem with hearlier | hnow
      · exact List.mem_append_left _ (hrecorded.running other id found hearlier)
      · exact List.mem_append_right _ hnow
    · simp only [advance, Function.update_of_ne hother] at hmem
      exact List.mem_append_left _ (hrecorded.running other id found hmem)

theorem CallbackState.recorded_step {state next : CallbackState n L C K}
    {action : CallbackAction n L C K} (hrecorded : state.Recorded)
    (hstep : state.step action = some next) : next.Recorded := by
  cases turn_of_step hstep with
  | thread thread move locals events haction hturn =>
      exact hrecorded.thread thread hturn
  | locked stored event hsection =>
      exact ⟨hrecorded.history.locked hsection,
        fun thread id found hmem =>
          List.mem_append_left _ (hrecorded.running thread id found hmem)⟩
  | dump => exact ⟨hrecorded.history, hrecorded.running⟩
  | restore => exact ⟨hrecorded.history, fun _ _ _ hmem => by cases hmem⟩

theorem CallbackState.recorded_of_reaches {finish : CallbackState n L C K}
    (hreach : (callbackMachine n L C K).Reaches (.initial n L C K) finish) :
    finish.Recorded := by
  apply @TransitionSystem.System.Reaches.invariant _ _ _ Recorded _ _ _ hreach
    recorded_initial
  intro state action next hrecorded hstep
  exact recorded_step hrecorded hstep

omit [DecidableEq L] in
theorem CallbackState.Recorded.registered {state : CallbackState n L C K}
    (hrecorded : state.Recorded) {thread : Fin n} {id : UInt64} {closure : K}
    (hmem : .stored id (some closure) ∈ (state.threads thread).frames) :
    Registered state.log id.toNat closure := by
  obtain ⟨before, after, hlog⟩ :=
    List.append_of_mem (hrecorded.running thread id _ hmem)
  have hadmits := hrecorded.history.guarded before _ after hlog
  have hbefore := ((hadmits closure).mp rfl).1
  rw [hlog]
  exact List.mem_append_left _ hbefore

/-- In every interleaving of registrations, removals, finalizers, invocations
and restores: the history is guarded, so that a lookup finds exactly the
closure registered under the id and not removed, and an invocation that found
none answers nonzero; a trampoline runs the only closure ever registered
under its id; no id is given out twice, and none is reported removed twice; an
id survives the trip through `uint64` as long as fewer than 2^64 are given
out; and the stored trampoline neither reads nor sets the bindings and the
tunnel flags around it. -/
theorem stored_callback_registry {finish : CallbackState n L C K}
    (hreach : (callbackMachine n L C K).Reaches (.initial n L C K) finish) :
    Guarded StoredAdmits finish.log ∧
      (∀ thread id closure,
        .stored id (some closure) ∈ (finish.threads thread).frames →
          Registered finish.log id.toNat closure ∧
            ∀ other, Registered finish.log id.toNat other →
              other = closure) ∧
      (registeredIds finish.log).Nodup ∧
      (unregisteredIds finish.log).Nodup ∧
      ((registeredIds finish.log).length < UInt64.size →
        ∀ id ∈ registeredIds finish.log, (UInt64.ofNat id).toNat = id) ∧
      ∀ (stored : StoredCallbacks K) (locals : ThreadLocals L C K)
        (move : ThreadMove L C K), move.ofStored = true →
          ∀ live stash tunnel,
            (locals.withBindings live stash tunnel).step stored move =
              (locals.step stored move).map fun (next, events) =>
                (next.withBindings live stash tunnel, events) := by
  have hrecorded := CallbackState.recorded_of_reaches hreach
  have hids := hrecorded.history.ids
  refine ⟨hrecorded.history.guarded, ?_, ?_, hrecorded.history.unregisteredOnce,
    ?_, ?_⟩
  · intro thread id closure hmem
    have hregistered := hrecorded.registered hmem
    exact ⟨hregistered, fun other hother =>
      hrecorded.history.unique _ _ _ hregistered hother⟩
  · rw [hids]
    exact List.nodup_range'
  · intro hfew id hid
    rw [hids, List.length_range'] at hfew
    rw [hids, List.mem_range'_1] at hid
    exact UInt64.toNat_ofNat_of_lt (by omega)
  · intro stored locals move hstored live stash tunnel
    exact locals.step_withBindings stored hstored live stash tunnel

end Runs

/-- A closure is registered, run and removed while another thread is about to
look it up; the image is restored, and the next registration gets a new
id. -/
theorem stored_callback_registry_restored :
    let machine := callbackMachine 2 Bool ℕ ℕ
    let actions : List (CallbackAction 2 Bool ℕ ℕ) :=
      [.callback 0 70, .thread 1 .enterForeign, .thread 1 (.invokeStored 1),
        .thread 1 .lookup, .thread 1 (.storedReturn false),
        .thread 1 (.invokeStored 1), .unregisterCallback 0 1,
        .thread 1 .lookup, .thread 1 (.storedReturn false),
        .unregisterCallback 0 1, .dump, .restore, .callback 1 71,
        .thread 0 .enterForeign, .thread 0 (.invokeStored 2),
        .thread 0 .lookup]
    ∃ finish, machine.run (.initial 2 Bool ℕ ℕ) actions = some finish ∧
      finish.log =
        [.registered 1 70, .lookedUp 1 (some 70), .answered 1 (some 70) 0,
          .unregistered 1 true, .lookedUp 1 none, .answered 1 none 2,
          .unregistered 1 false, .registered 2 71, .lookedUp 2 (some 71)] ∧
      Guarded StoredAdmits finish.log := by
  intro machine actions
  have hrun : (machine.run (.initial 2 Bool ℕ ℕ) actions).map
      CallbackState.log = some
        [.registered 1 70, .lookedUp 1 (some 70), .answered 1 (some 70) 0,
          .unregistered 1 true, .lookedUp 1 none, .answered 1 none 2,
          .unregistered 1 false, .registered 2 71,
          .lookedUp 2 (some 71)] := by decide +kernel
  obtain ⟨finish, hfinish, hlog⟩ := Option.map_eq_some_iff.mp hrun
  exact ⟨finish, hfinish, hlog, (stored_callback_registry ⟨_, hfinish⟩).1⟩

end Rulisp
