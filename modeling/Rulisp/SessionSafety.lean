import Rulisp.HandleProvenance
import Rulisp.PublishedLoad

/-!
# Foreign pointers across sessions

A restored image holds foreign pointers of a dead process in its crates,
wrappers and cells.  Wrappers and cells carry the session they were made in
and are checked against it.  The slots of a crate carry no session: they are
right only because a restore reloads or stubs every crate, which it does not
when the artifact found at a crate's path calls itself by a name that differs
in hyphens and underscores.
-/

namespace Rulisp

open TransitionSystem

section Case

variable [LispCase]

/-! ## The condition and the property -/

/-- The load, if it sets a crate's slots, sets those of this name. -/
def LoaderState.CommitsAs (state : LoaderState) (host : LoadHost)
    (args : LoadArgs) (name : String) : Prop :=
  match (state.registry.beginLoad host state.nextLibrary args).2 with
  | .error _ => True
  | .ok commit => commit.generation.crate = name

instance (state : LoaderState) (host : LoadHost) (args : LoadArgs)
    (name : String) : Decidable (state.CommitsAs host args name) := by
  unfold LoaderState.CommitsAs
  split <;> infer_instance

/-- The crate's library was opened in this session. -/
def Crate.Current (crate : Crate) (session : ℕ) : Prop :=
  ∃ library ∈ crate.libHandle, library.session = session

instance (crate : Crate) (session : ℕ) : Decidable (crate.Current session) :=
  inferInstanceAs (Decidable (∃ library ∈ crate.libHandle, _))

/-- Calling the function signals before any pointer is used. -/
def LispFunction.Refuses (session : ℕ) : LispFunction → Prop
  | .wrapper w => w.ctx.session ≠ session
  | .stub _ _ => True
  | .foreign _ => False

/-- So does every function bound to one of the crate's exports. -/
def Crate.Refuses (crate : Crate) (session : ℕ)
    (functions : Symbol → Option LispFunction) : Prop :=
  ∀ sym ∈ crate.symbols, ∀ fn, functions sym = some fn → fn.Refuses session

/-- The entries of `*crates*` that a restore has yet to come to. -/
def RegistryLock.pending : RegistryLock → List String
  | .unlocked => []
  | .restoring remaining => remaining
  | .loading current =>
      match current.restore with
      | none => []
      | some (_, remaining) => remaining

def PublishOp.rebinds : PublishOp → List Symbol
  | .setFunction sym _ => [sym]
  | _ => []

/-- The names that the next operation of a restore's publication rebinds. -/
def RegistryLock.rebinding : RegistryLock → List Symbol
  | .loading current =>
      match current.restore, current.ops with
      | some _, op :: _ => op.rebinds
      | _, _ => []
  | _ => []

/-- A reload that a restore makes commits the crate that it is for, or none,
and does not rebind an export of a crate whose own reload has already failed
in this restore. -/
def LoaderState.RestoresFaithfully (state : LoaderState) :
    LoaderAction → Prop
  | .restoreCrate name host => ∀ crate ∈ state.registry.crates name,
      state.CommitsAs host (LoaderState.restoreArgs name crate) name
  | .publish _ =>
      ∀ sym ∈ state.lock.rebinding, ∀ name ∈ state.registry.crateLoadOrder,
        ∀ crate ∈ state.registry.crates name,
          name ∉ state.lock.pending → ¬ crate.Current state.session →
            sym ∉ crate.symbols
  | _ => True

instance (state : LoaderState) (action : LoaderAction) :
    Decidable (state.RestoresFaithfully action) :=
  match action with
  | .restoreCrate name _ =>
      inferInstanceAs (Decidable (∀ crate ∈ state.registry.crates name, _))
  | .publish _ =>
      inferInstanceAs (Decidable (∀ sym ∈ state.lock.rebinding, _))
  | .load _ _ | .sweep | .restore _ | .restored => .isTrue trivial

def ImageState.RestoresFaithfully {n : ℕ} (state : ImageState n) :
    ImageAction n → Prop
  | .loader action => state.loader.RestoresFaithfully action
  | _ => True

instance {n : ℕ} (state : ImageState n) (action : ImageAction n) :
    Decidable (state.RestoresFaithfully action) :=
  match action with
  | .loader action =>
      inferInstanceAs (Decidable (state.loader.RestoresFaithfully action))
  | .enter .. | .check .. | .invoke .. | .returnOk .. | .returnStatus ..
  | .endCall .. | .free .. | .foreignFree .. | .dump .. | .dumpHook .. =>
      .isTrue trivial

/-- Every pointer called was resolved in the session of the call; after a
restore each crate is at a generation of the new session or inert. -/
structure ImageState.SessionSafe {n : ℕ} (state : ImageState n) : Prop where
  calls : ∀ session call, (session, call) ∈ state.transcript →
    call.fn.library.session = session
  restored : state.loader.lock = .restoring [] →
    ∀ name crate, state.loader.registry.crates name = some crate →
      crate.Current state.loader.session ∨
        crate.Refuses state.loader.session state.loader.registry.functions

/-! ## The loader -/

/-- The pointers that the dump hook runner takes from the crate. -/
def Crate.HookCurrent (crate : Crate) (session : ℕ) : Prop :=
  ∀ onDumpPtr, crate.onDumpPtr = some onDumpPtr →
    onDumpPtr.library.session = session ∧
      ∀ lastErrorPtr, crate.lastErrorPtr = some lastErrorPtr →
        lastErrorPtr.library.session = session

/-- Every registered name is in the load order. -/
def Registry.Ordered (registry : Registry) : Prop :=
  ∀ name crate, registry.crates name = some crate →
    name ∈ registry.crateLoadOrder

structure LoaderState.SessionInvariant (state : LoaderState) : Prop where
  base : state.Invariant
  ordered : state.registry.Ordered
  hooks : ∀ name crate, state.registry.crates name = some crate →
    name ∉ state.lock.pending → crate.HookCurrent state.session
  loading : ∀ loading, state.lock = .loading loading →
    ∃ crate, state.registry.crates loading.generation.crate = some crate ∧
      crate.Current state.session
  restoring : state.lock.isRestoring = true →
    ∀ name crate, state.registry.crates name = some crate →
      name ∉ state.lock.pending →
        crate.Current state.session ∨
          crate.Refuses state.session state.registry.functions

/-! ### Registry operations -/

namespace Registry

theorem crates_register_cases {registry : Registry} {name : String}
    {package : Option String} {other : String} {crate : Crate}
    (hcrate : (registry.register name package).crates other = some crate) :
    registry.crates other = some crate ∨
      other = name ∧ ∃ package, crate = makeCrate name package := by
  by_cases hother : other = name
  · subst hother
    rw [crates_register_self] at hcrate
    cases hcrate
    rcases registry.crateFor_cases other package with hold | ⟨-, hfresh⟩
    · exact .inl hold
    · exact .inr ⟨rfl, _, hfresh⟩
  · rw [crates_register_of_ne package hother] at hcrate
    exact .inl hcrate

theorem order_register (registry : Registry) (name : String)
    (package : Option String) :
    ∀ other ∈ registry.crateLoadOrder,
      other ∈ (registry.register name package).crateLoadOrder := by
  intro other hother
  unfold register
  split
  · exact hother
  · exact List.mem_append_left _ hother

theorem Ordered.register {registry : Registry} (hordered : registry.Ordered)
    (name : String) (package : Option String) :
    (registry.register name package).Ordered := by
  intro other crate hcrate
  by_cases hother : other = name
  · subst hother
    unfold Registry.register
    cases hentry : registry.crates other with
    | none => simp
    | some entry => simpa [hentry] using hordered other entry hentry
  · rw [crates_register_of_ne package hother] at hcrate
    exact registry.order_register name package other
      (hordered other crate hcrate)

omit [LispCase] in
theorem Ordered.setCrate {registry : Registry} (hordered : registry.Ordered)
    {name : String} (hname : name ∈ registry.crateLoadOrder) (crate : Crate) :
    (registry.setCrate name crate).Ordered := by
  intro other found hfound
  rw [crates_setCrate] at hfound
  split at hfound
  · rename_i hother
    exact hother ▸ hname
  · exact hordered other found hfound

omit [LispCase] in
theorem Ordered.publish {registry : Registry} (hordered : registry.Ordered)
    (name package : String) (op : PublishOp) :
    (registry.publish name package op).Ordered := by
  intro other crate hcrate
  obtain ⟨before, hbefore, -⟩ := crates_publish_cases hcrate
  have hmem := hordered other before hbefore
  cases op with
  | setSymbols symbols =>
      simp only [Registry.publish]
      split <;> exact hmem
  | _ => exact hmem

omit [LispCase] in
theorem Ordered.stubCrate {registry : Registry} (hordered : registry.Ordered)
    (name : String) (e : LoadCondition) :
    (registry.stubCrate name e).Ordered := by
  intro other crate hcrate
  have hmem : other ∈ registry.crateLoadOrder := by
    rw [crates_stubCrate] at hcrate
    split at hcrate
    · rename_i hother
      obtain ⟨before, hbefore, -⟩ := Option.map_eq_some_iff.mp hcrate
      exact hother ▸ hordered name before hbefore
    · exact hordered other crate hcrate
  unfold Registry.stubCrate
  split <;> exact hmem

theorem Ordered.afterRefusal {registry next : Registry}
    (hordered : registry.Ordered) (hnext : registry.AfterRefusal next) :
    next.Ordered := by
  rcases hnext with rfl | ⟨name, package, rfl⟩
  · exact hordered
  · exact hordered.register name package

theorem Ordered.committed {registry next : Registry}
    (hordered : registry.Ordered) {host : LoadHost} {library : Library}
    {args : LoadArgs} {commit : Commit}
    (hcommitted : registry.Committed host library args next commit) :
    next.Ordered := by
  cases hcommitted with
  | committed opened prepared hadmitted hprepare =>
      have hregistered := hordered.register opened.manifest.crate args.package
      exact hregistered.setCrate
        (hregistered _ _ (registry.crates_register_self _ _)) _

/-- A refused load leaves every entry alone, or adds a blank one. -/
theorem AfterRefusal.crates_cases {registry next : Registry}
    (hnext : registry.AfterRefusal next) {name : String} {crate : Crate}
    (hcrate : next.crates name = some crate) :
    registry.crates name = some crate ∨
      ∃ package, crate = makeCrate name package := by
  rcases hnext with rfl | ⟨registered, package, rfl⟩
  · exact .inl hcrate
  · rcases crates_register_cases hcrate with hold | ⟨hname, package, hfresh⟩
    · exact .inl hold
    · exact .inr ⟨package, hname ▸ hfresh⟩

theorem AfterRefusal.functions_eq {registry next : Registry}
    (hnext : registry.AfterRefusal next) :
    next.functions = registry.functions := by
  rcases hnext with rfl | ⟨name, package, rfl⟩
  · rfl
  · exact registry.functions_register name package

/-- A commit leaves the other entries alone and makes its own current. -/
theorem Committed.crates_cases {registry next : Registry} {host : LoadHost}
    {library : Library} {args : LoadArgs} {commit : Commit}
    (hcommitted : registry.Committed host library args next commit)
    {name : String} {crate : Crate}
    (hcrate : next.crates name = some crate) :
    (name ≠ commit.generation.crate ∧ registry.crates name = some crate) ∨
      (name = commit.generation.crate ∧ crate.Current library.session ∧
        crate.HookCurrent library.session) := by
  cases hcommitted with
  | committed opened prepared hadmitted hprepare =>
      have hsound := prepareGeneration_sound hprepare
      rw [crates_setCrate] at hcrate
      split at hcrate
      · rename_i hname
        cases hcrate
        refine .inr ⟨hname, ⟨library, rfl, rfl⟩, ?_⟩
        intro onDumpPtr honDump
        refine ⟨congrArg Library.session (hsound.onDumpPtr onDumpPtr honDump), ?_⟩
        intro lastErrorPtr hlast
        cases hlast
        exact congrArg Library.session hsound.lastErrorPtr
      · rename_i hname
        rw [crates_register_of_ne _ hname] at hcrate
        exact .inl ⟨hname, hcrate⟩

theorem Committed.functions_eq {registry next : Registry} {host : LoadHost}
    {library : Library} {args : LoadArgs} {commit : Commit}
    (hcommitted : registry.Committed host library args next commit) :
    next.functions = registry.functions := by
  cases hcommitted with
  | committed opened prepared hadmitted hprepare =>
      exact registry.functions_register _ _

omit [LispCase] in
/-- What publication does to a binding. -/
theorem functions_publish_cases {registry : Registry} {name package : String}
    {op : PublishOp} {sym : Symbol} {fn : LispFunction}
    (hfn : (registry.publish name package op).functions sym = some fn) :
    registry.functions sym = some fn ∨ ∃ w, op = .setFunction sym w := by
  rcases registry.functions_publish_eq_or name package op sym with
    hsame | ⟨w, hset, -⟩ | ⟨-, hnone⟩
  · exact .inl (hsame ▸ hfn)
  · exact .inr ⟨w, hset⟩
  · rw [hnone] at hfn
    cases hfn

omit [LispCase] in
theorem functions_stubCrate_cases {registry : Registry} {name : String}
    {e : LoadCondition} {sym : Symbol} {fn : LispFunction}
    (hfn : (registry.stubCrate name e).functions sym = some fn) :
    registry.functions sym = some fn ∨ fn = .stub name e := by
  unfold stubCrate at hfn
  split at hfn
  · exact .inl hfn
  · simp only at hfn
    split at hfn
    · cases hfn
      exact .inr rfl
    · exact .inl hfn

omit [LispCase] in
/-- Of the crate itself a stub leaves nothing that could be called. -/
theorem crates_stubCrate_self {registry : Registry} {name : String}
    {e : LoadCondition} {crate : Crate}
    (hcrate : (registry.stubCrate name e).crates name = some crate)
    (session : ℕ) :
    crate.onDumpPtr = none ∧
      crate.Refuses session (registry.stubCrate name e).functions := by
  rw [crates_stubCrate, if_pos rfl] at hcrate
  obtain ⟨before, hbefore, rfl⟩ := Option.map_eq_some_iff.mp hcrate
  refine ⟨rfl, ?_⟩
  intro sym hsym fn hfn
  simp only [stubCrate, hbefore] at hfn
  have hmem : sym ∈ before.symbols := hsym
  rw [if_pos hmem] at hfn
  cases hfn
  trivial

end Registry

omit [LispCase] in
theorem Crate.Refuses.mono {crate : Crate} {session : ℕ}
    {functions later : Symbol → Option LispFunction}
    (hrefuses : crate.Refuses session functions)
    (hlater : ∀ sym ∈ crate.symbols, ∀ fn, later sym = some fn →
      functions sym = some fn ∨ fn.Refuses session) :
    crate.Refuses session later := by
  intro sym hsym fn hfn
  rcases hlater sym hsym fn hfn with hold | hnew
  · exact hrefuses sym hsym fn hold
  · exact hnew

theorem LoaderState.CommitsAs.committed {state : LoaderState} {next : Registry}
    {host : LoadHost} {args : LoadArgs} {name : String} {commit : Commit}
    (hcommits : state.CommitsAs host args name)
    (hcommitted : state.registry.Committed host state.nextLibrary args next
      commit) : commit.generation.crate = name := by
  unfold LoaderState.CommitsAs at hcommits
  rw [hcommitted.beginLoad_eq] at hcommits
  exact hcommits

omit [LispCase] in
theorem Crate.hookCurrent_of_none {crate : Crate}
    (honDump : crate.onDumpPtr = none) (session : ℕ) :
    crate.HookCurrent session := by
  intro onDumpPtr hptr
  rw [honDump] at hptr
  cases hptr

/-! ### Preservation -/

namespace LoaderState.SessionInvariant

variable {state : LoaderState}

/-- A load that ended by a condition, and the stub that a restore makes of
its entry. -/
theorem afterStub (hinv : state.SessionInvariant) {registry : Registry}
    {name : String} {remaining : List String} (e : LoadCondition)
    (counter : ℕ)
    (hrestoring : state.lock.isRestoring = true)
    (hpending : ∀ other, other ≠ name → other ∉ remaining →
      other ∉ state.lock.pending)
    (hregistry : state.registry.AfterRefusal registry)
    (hbase : LoaderState.Invariant
      { state with
        copyCounter := counter
        registry := registry.stubCrate name e
        lock := .restoring remaining }) :
    SessionInvariant
      { state with
        copyCounter := counter
        registry := registry.stubCrate name e
        lock := .restoring remaining } := by
  constructor
  · exact hbase
  · exact (hinv.ordered.afterRefusal hregistry).stubCrate name e
  · intro other crate hcrate hother
    by_cases hname : other = name
    · subst hname
      exact Crate.hookCurrent_of_none
        (Registry.crates_stubCrate_self hcrate state.session).1 _
    · simp only [Registry.crates_stubCrate, if_neg hname] at hcrate
      rcases hregistry.crates_cases hcrate with hold | ⟨package, rfl⟩
      · exact hinv.hooks other crate hold (hpending other hname hother)
      · exact Crate.hookCurrent_of_none rfl _
  · intro loading hloading
    cases hloading
  · intro _ other crate hcrate hother
    by_cases hname : other = name
    · subst hname
      exact .inr (Registry.crates_stubCrate_self hcrate state.session).2
    · simp only [Registry.crates_stubCrate, if_neg hname] at hcrate
      rcases hregistry.crates_cases hcrate with hold | ⟨package, rfl⟩
      · rcases hinv.restoring hrestoring other crate hold
          (hpending other hname hother) with hcurrent | hrefuses
        · exact .inl hcurrent
        · refine .inr (hrefuses.mono fun sym hsym fn hfn => ?_)
          rw [← hregistry.functions_eq]
          rcases Registry.functions_stubCrate_cases hfn with hold | rfl
          · exact .inl hold
          · exact .inr trivial
      · exact .inr fun sym hsym => by cases hsym

/-- A commit makes its crate current; in a restore that is the entry's. -/
theorem afterBegin (hinv : state.SessionInvariant) {action : LoaderAction}
    {host : LoadHost} {args : LoadArgs}
    {restore : Option (String × List String)} (counter : ℕ)
    {registry : Registry} {commit : Commit}
    (hcondition : state.RestoresFaithfully action)
    (hbegins : state.Begins host action args restore)
    (hcommitted : state.registry.Committed host state.nextLibrary args
      registry commit) :
    SessionInvariant
      { state with
        copyCounter := counter
        registry := registry
        lock := .loading
          { generation := commit.generation
            package := commit.package
            ops := commit.ops
            sweepRefusal := host.sweepRefusal
            restore := restore }
        generations := state.generations ++ [commit.generation] } := by
  have hpending : ∀ other, other ≠ commit.generation.crate →
      other ∉ RegistryLock.pending (.loading
        { generation := commit.generation
          package := commit.package
          ops := commit.ops
          sweepRefusal := host.sweepRefusal
          restore := restore }) →
        other ∉ state.lock.pending := by
    intro other hother hnot
    cases hbegins with
    | call call args hlock => simp [hlock, RegistryLock.pending]
    | entry name remaining crate hlock hcrate =>
        rw [(hcondition crate hcrate).committed hcommitted] at hother
        rw [hlock]
        simp only [RegistryLock.pending, List.mem_cons, not_or] at hnot ⊢
        exact ⟨hother, hnot⟩
  have hentry : ∃ crate,
      registry.crates commit.generation.crate = some crate := by
    obtain ⟨-, -, crate, hcrate, -⟩ := hcommitted.generation_eq
    exact ⟨crate, hcrate⟩
  constructor
  · exact hinv.base.afterBegin counter restore hcommitted
  · exact hinv.ordered.committed hcommitted
  · intro other crate hcrate hother
    rcases hcommitted.crates_cases hcrate with
      ⟨hname, hold⟩ | ⟨-, -, hhook⟩
    · exact hinv.hooks other crate hold (hpending other hname hother)
    · exact hhook
  · intro loading hloading
    cases hloading
    obtain ⟨crate, hcrate⟩ := hentry
    rcases hcommitted.crates_cases hcrate with
      ⟨hname, -⟩ | ⟨-, hcurrent, -⟩
    · exact absurd rfl hname
    · exact ⟨crate, hcrate, hcurrent⟩
  · intro hrestoring other crate hcrate hother
    rcases hcommitted.crates_cases hcrate with
      ⟨hname, hold⟩ | ⟨-, hcurrent, -⟩
    · have hbefore : state.lock.isRestoring = true := by
        cases hbegins with
        | call call args hlock => cases hrestoring
        | entry name remaining crate hlock hcrate =>
            rw [hlock]
            rfl
      simp only [hcommitted.functions_eq]
      exact hinv.restoring hbefore other crate hold
        (hpending other hname hother)
    · exact .inl hcurrent

/-- A publication operation does not touch the slots of a crate that the
hooks and the gates rely on. -/
theorem afterPublish (hinv : state.SessionInvariant) {loading : Loading}
    {op : PublishOp} {rest : List PublishOp}
    (hcondition : state.RestoresFaithfully (.publish none))
    (hlock : state.lock = .loading loading)
    (hops : loading.ops = op :: rest) :
    SessionInvariant
      { state with
        registry := state.registry.publish loading.generation.crate
          loading.package op
        lock := .loading { loading with ops := rest }
        published := state.published ++ op.published } := by
  have hpending : RegistryLock.pending (.loading { loading with ops := rest }) =
      state.lock.pending := by
    rw [hlock]
    rfl
  constructor
  · exact hinv.base.afterPublish hlock hops
  · exact hinv.ordered.publish _ _ op
  · intro name crate hcrate hname
    simp only [hpending] at hname
    obtain ⟨before, hbefore, rfl | ⟨symbols, -, -, rfl⟩⟩ :=
      Registry.crates_publish_cases hcrate
    · exact hinv.hooks name _ hbefore hname
    · exact hinv.hooks name before hbefore hname
  · intro next hnext
    cases hnext
    obtain ⟨crate, hcrate, hcurrent⟩ := hinv.loading loading hlock
    rcases state.registry.crates_publish loading.generation.crate
      loading.package op loading.generation.crate with
        hsame | ⟨symbols, before, -, -, hbefore, hafter⟩
    · exact ⟨crate, hsame.trans hcrate, hcurrent⟩
    · cases hcrate.symm.trans hbefore
      exact ⟨_, hafter, hcurrent⟩
  · intro hrestoring name crate hcrate hname
    simp only [hpending] at hname
    have hbefore : state.lock.isRestoring = true := by
      rw [hlock]
      exact hrestoring
    obtain ⟨before, hfound, hcases⟩ := Registry.crates_publish_cases hcrate
    by_cases hcurrent : before.Current state.session
    · left
      rcases hcases with rfl | ⟨symbols, -, -, rfl⟩ <;> exact hcurrent
    · have hrefuses : before.Refuses state.session state.registry.functions :=
        (hinv.restoring hbefore name before hfound hname).resolve_left hcurrent
      rcases hcases with rfl | ⟨symbols, -, rfl, rfl⟩
      · right
        apply hrefuses.mono
        intro sym hsym fn hfn
        rcases Registry.functions_publish_cases hfn with hold | ⟨w, rfl⟩
        · exact .inl hold
        · have hrebinding : sym ∈ state.lock.rebinding := by
            rw [hlock] at hbefore ⊢
            obtain ⟨entry, hentry⟩ := Option.isSome_iff_exists.mp hbefore
            simp [RegistryLock.rebinding, hentry, hops, PublishOp.rebinds]
          exact absurd hsym
            (hcondition sym hrebinding name (hinv.ordered name crate hfound)
              crate hfound hname hcurrent)
      · -- symbols are set for the crate that is being published
        obtain ⟨entry, hentry, hentryCurrent⟩ := hinv.loading loading hlock
        cases hfound.symm.trans hentry
        exact absurd hentryCurrent hcurrent

/-- The lock passes on; nothing else changes. -/
theorem afterLock (hinv : state.SessionInvariant) {lock : RegistryLock}
    (hfree : ∀ loading, lock ≠ .loading loading)
    (hpending : lock.pending = state.lock.pending)
    (hrestoring : lock.isRestoring = true → state.lock.isRestoring = true) :
    SessionInvariant { state with lock := lock } := by
  constructor
  · exact hinv.base.afterUnlock hfree
  · exact hinv.ordered
  · intro name crate hcrate hname
    simp only [hpending] at hname
    exact hinv.hooks name crate hcrate hname
  · exact fun loading hloading => absurd hloading (hfree loading)
  · intro hlock name crate hcrate hname
    simp only [hpending] at hname
    exact hinv.restoring (hrestoring hlock) name crate hcrate hname

/-- At the start of an image every entry is ahead. -/
theorem afterImageStart (hinv : state.SessionInvariant)
    {order : List String} (horder : order.Perm state.registry.crateLoadOrder) :
    SessionInvariant
      { state with session := state.session + 1, lock := .restoring order } := by
  have hall : ∀ name crate, state.registry.crates name = some crate →
      name ∈ order :=
    fun name crate hcrate =>
      horder.mem_iff.mpr (hinv.ordered name crate hcrate)
  constructor
  · exact hinv.base.afterImageStart order
  · exact hinv.ordered
  · exact fun name crate hcrate hname =>
      absurd (hall name crate hcrate) hname
  · intro loading hloading
    cases hloading
  · exact fun _ name crate hcrate hname =>
      absurd (hall name crate hcrate) hname

theorem afterOutcome (hinv : state.SessionInvariant) {action : LoaderAction}
    {next : LoaderState} (hcondition : state.RestoresFaithfully action)
    (houtcome : state.Outcome action next) : next.SessionInvariant := by
  have hbase := hinv.base.afterOutcome houtcome
  cases houtcome with
  | unresolved call host => exact hinv
  | refused call host counter registry hlock hregistry =>
      constructor
      · exact hbase
      · exact hinv.ordered.afterRefusal hregistry
      · intro name crate hcrate hname
        rcases hregistry.crates_cases hcrate with hold | ⟨package, rfl⟩
        · exact hinv.hooks name crate hold hname
        · exact Crate.hookCurrent_of_none rfl _
      · simp [hlock]
      · simp [hlock, RegistryLock.isRestoring]
  | entryRefused name remaining host counter registry e hlock hregistry =>
      apply hinv.afterStub e counter (by rw [hlock]; rfl) _ hregistry hbase
      intro other hname hother
      rw [hlock]
      exact List.not_mem_cons_of_ne_of_not_mem hname hother
  | begun action host args restore counter registry commit hbegins hcommitted =>
      exact hinv.afterBegin counter hcondition hbegins hcommitted
  | published loading op rest hlock hops =>
      exact hinv.afterPublish hcondition hlock hops
  | ended action loading hlock hrestore =>
      apply hinv.afterLock (by simp)
      · rw [hlock]
        simp [RegistryLock.pending, hrestore]
      · intro hrestoring
        cases hrestoring
  | entryEnded action loading name remaining hlock hrestore hops =>
      apply hinv.afterLock (by simp)
      · rw [hlock]
        simp [RegistryLock.pending, hrestore]
      · intro
        rw [hlock]
        simp [RegistryLock.isRestoring, hrestore]
  | entryFailed action loading name remaining e hlock hrestore =>
      apply hinv.afterStub e state.copyCounter _ _ (.inl rfl) hbase
      · rw [hlock]
        simp [RegistryLock.isRestoring, hrestore]
      · intro other hname hother
        rw [hlock]
        simpa [RegistryLock.pending, hrestore] using hother
  | imageStarted order hlock horder => exact hinv.afterImageStart horder
  | restored hlock =>
      apply hinv.afterLock (by simp)
      · rw [hlock]
        rfl
      · intro hrestoring
        cases hrestoring

end LoaderState.SessionInvariant

/-- Only the start of an image changes the session. -/
theorem LoaderState.Outcome.session_kept {state next : LoaderState}
    {action : LoaderAction} (houtcome : state.Outcome action next)
    (hthreads : action.endsThreads = false) : next.session = state.session := by
  cases houtcome with
  | imageStarted order hlock horder => cases hthreads
  | _ => rfl

/-! ## The image -/

namespace ImageState

variable {n : ℕ}

/-- A frame of a call has passed the session gate; a free on its way goes to
a shim of the cell's session. -/
def FrameInSession (state : ImageState n) : Frame → Prop
  | .gating w _ _ =>
      w ∈ state.loader.published ∧ w.ctx.session = state.loader.session
  | .inside w _ =>
      w ∈ state.loader.published ∧ w.ctx.session = state.loader.session
  | .releasing handle target => ∃ object,
      state.handles[handle]? = some object ∧
        target.2.library.session = object.cell.session
  | _ => True

structure SessionInvariant (state : ImageState n) : Prop where
  loader : state.loader.SessionInvariant
  handles : ∀ object ∈ state.handles,
    object.cell.freeFn.library.session = object.cell.session
  frames : ∀ thread, ∀ frame ∈ state.threads thread,
    state.FrameInSession frame
  calls : ∀ session call, (session, call) ∈ state.transcript →
    call.fn.library.session = session

/-- The same session, with every handle in its place. -/
structure Continues (state next : ImageState n) : Prop where
  session : next.loader.session = state.loader.session
  published : ∀ w ∈ state.loader.published, w ∈ next.loader.published
  handles : ∀ (index : ℕ) (object : HandleObject),
    state.handles[index]? = some object →
      ∃ later : HandleObject, next.handles[index]? = some later ∧
        later.cell.session = object.cell.session

namespace Continues

variable {state next : ImageState n}

omit [LispCase] in
theorem of_eq (hloader : next.loader = state.loader)
    (hhandles : next.handles = state.handles) : state.Continues next where
  session := by rw [hloader]
  published := fun w hw => by rwa [hloader]
  handles := fun index object hobject =>
    ⟨object, by rwa [hhandles], rfl⟩

omit [LispCase] in
theorem frame (hcontinues : state.Continues next) {frame : Frame}
    (hframe : state.FrameInSession frame) : next.FrameInSession frame := by
  cases frame with
  | gating w pending begun =>
      exact ⟨hcontinues.published w hframe.1,
        hframe.2.trans hcontinues.session.symm⟩
  | inside w begun =>
      exact ⟨hcontinues.published w hframe.1,
        hframe.2.trans hcontinues.session.symm⟩
  | releasing handle target =>
      obtain ⟨object, hobject, hsession⟩ := hframe
      obtain ⟨later, hlater, hsame⟩ :=
        hcontinues.handles handle object hobject
      exact ⟨later, hlater, hsession.trans hsame.symm⟩
  | unwinding begun => trivial
  | dumping remaining => trivial

end Continues

namespace SessionInvariant

variable {state : ImageState n}

/-- The pointers that a published wrapper closes over are of the session that
its gate compares. -/
theorem wrapper_session (hinv : state.SessionInvariant) {w : CrateWrapper}
    (hpublished : w ∈ state.loader.published) :
    w.fnPtr.library.session = w.ctx.session ∧
      w.ctx.lastErrorPtr.library.session = w.ctx.session ∧
      w.ctx.deallocPtr.library.session = w.ctx.session ∧
      ∀ rustType freePtr, (rustType, freePtr) ∈ w.ctx.freeTable →
        freePtr.library.session = w.ctx.session := by
  obtain ⟨g, -, hborn, -⟩ := hinv.loader.base.published w hpublished
  rw [hborn.session]
  refine ⟨congrArg Library.session hborn.fnPtr,
    congrArg Library.session hborn.lastErrorPtr,
    congrArg (·.library.session) hborn.deallocPtr, ?_⟩
  intro rustType freePtr hfree
  obtain ⟨h, -, -, rfl⟩ := hborn.frees rustType freePtr hfree
  rfl

theorem afterFrames (hinv : state.SessionInvariant)
    (calls : List ForeignCall) (thread : Fin n) (frames : List Frame)
    (hframes : ∀ frame ∈ frames, state.FrameInSession frame)
    (hcalls : ∀ call ∈ calls,
      call.fn.library.session = state.loader.session) :
    ((state.logCalls calls).setFrames thread frames).SessionInvariant := by
  have hcontinues : state.Continues
      ((state.logCalls calls).setFrames thread frames) := .of_eq rfl rfl
  constructor
  · exact hinv.loader
  · exact hinv.handles
  · intro other frame hframe
    apply hcontinues.frame
    by_cases hother : other = thread
    · subst hother
      simp only [setFrames, Function.update_self] at hframe
      exact hframes frame hframe
    · simp only [setFrames, Function.update_of_ne hother] at hframe
      exact hinv.frames other frame hframe
  · intro session call hmem
    rcases List.mem_append.mp hmem with hold | hnew
    · exact hinv.calls session call hold
    · obtain ⟨made, hmade, heq⟩ := List.mem_map.mp hnew
      cases heq
      exact hcalls _ hmade

theorem afterSetFrames (hinv : state.SessionInvariant) (thread : Fin n)
    (frames : List Frame)
    (hframes : ∀ frame ∈ frames, state.FrameInSession frame) :
    (state.setFrames thread frames).SessionInvariant := by
  have hlogged := hinv.afterFrames [] thread frames hframes (by simp)
  simpa [logCalls] using hlogged

omit [LispCase] in
theorem getElem_setCell {index : ℕ} {object : HandleObject}
    {cell : Cell ℕ ForeignPtr}
    (hobject : state.handles[index]? = some object) :
    (state.setCell index object cell).handles[index]? =
      some { object with cell := cell } := by
  have hlt := (List.getElem?_eq_some_iff.mp hobject).1
  simp [setCell, hlt]

omit [LispCase] in
theorem continues_setCell {index : ℕ} {object : HandleObject}
    {cell : Cell ℕ ForeignPtr} (hobject : state.handles[index]? = some object)
    (hsame : object.cell.SameHandle cell) :
    state.Continues (state.setCell index object cell) := by
  refine ⟨rfl, fun w hw => hw, fun other found hfound => ?_⟩
  by_cases hother : other = index
  · subst hother
    cases hobject.symm.trans hfound
    exact ⟨_, getElem_setCell hobject, hsame.session⟩
  · exact ⟨found, by simp [setCell, Ne.symm hother, hfound], rfl⟩

theorem afterSetCell (hinv : state.SessionInvariant) {index : ℕ}
    {object : HandleObject} {cell : Cell ℕ ForeignPtr}
    (hobject : state.handles[index]? = some object)
    (hsame : object.cell.SameHandle cell) :
    (state.setCell index object cell).SessionInvariant := by
  have hcontinues := continues_setCell hobject hsame
  constructor
  · exact hinv.loader
  · intro other hother
    rcases List.mem_or_eq_of_mem_set hother with hold | rfl
    · exact hinv.handles other hold
    · have hold := hinv.handles object (List.mem_of_getElem? hobject)
      simp only [hsame.freeFn, hsame.session]
      exact hold
  · exact fun thread frame hframe =>
      hcontinues.frame (hinv.frames thread frame hframe)
  · exact hinv.calls

theorem afterReturnValue (hinv : state.SessionInvariant) {w : CrateWrapper}
    (transferred : Bool) (hpublished : w ∈ state.loader.published)
    (hsession : w.ctx.session = state.loader.session) :
    (state.returnValue w transferred).SessionInvariant ∧
      state.Continues (state.returnValue w transferred) := by
  obtain ⟨-, -, hdealloc, hfrees⟩ := hinv.wrapper_session hpublished
  have hsame : state.Continues state := .of_eq rfl rfl
  unfold returnValue
  split
  · rename_i token cls hresult
    have hcontinues : state.Continues (state.makeCrateHandle w token cls) := by
      refine ⟨?_, ?_, ?_⟩
      · rw [makeCrateHandle_loader]
      · rw [makeCrateHandle_loader]
        exact fun w hw => hw
      · intro index object hobject
        refine ⟨object, ?_, rfl⟩
        have hlt := (List.getElem?_eq_some_iff.mp hobject).1
        unfold makeCrateHandle
        split
        · exact hobject
        · simp only
          rw [List.getElem?_append_left hlt]
          exact hobject
    refine ⟨⟨?_, ?_, ?_, ?_⟩, hcontinues⟩
    · rw [makeCrateHandle_loader]
      exact hinv.loader
    · intro object hobject
      rcases state.mem_handles_makeCrateHandle w token cls hobject with
        hold | ⟨rustType, freePtr, -, hfree, rfl⟩
      · exact hinv.handles object hold
      · exact hfrees rustType freePtr hfree
    · intro thread frame hframe
      rw [makeCrateHandle_threads] at hframe
      exact hcontinues.frame (hinv.frames thread frame hframe)
    · rw [makeCrateHandle_transcript]
      exact hinv.calls
  · split
    · refine ⟨⟨hinv.loader, hinv.handles, hinv.frames, ?_⟩, .of_eq rfl rfl⟩
      intro session call hmem
      rcases List.mem_append.mp hmem with hold | hnew
      · exact hinv.calls session call hold
      · cases List.mem_singleton.mp hnew
        exact hdealloc.trans hsession
    · exact ⟨hinv, hsame⟩

theorem afterRelease (hinv : state.SessionInvariant) (thread : Fin n)
    {handle : ℕ} {object : HandleObject}
    {target : Option (ℕ × ForeignPtr)} {rest : List Frame}
    (hobject : state.handles[handle]? = some object)
    (htarget : ∀ found, target = some found →
      found.2 = object.cell.freeFn)
    (hrest : ∀ frame ∈ rest, state.FrameInSession frame) :
    (state.release thread handle target rest).SessionInvariant := by
  cases target with
  | none => exact hinv.afterSetFrames thread rest hrest
  | some found =>
      apply hinv.afterSetFrames
      refine List.forall_mem_cons.mpr ⟨⟨object, hobject, ?_⟩, hrest⟩
      rw [htarget found rfl]
      exact hinv.handles object (List.mem_of_getElem? hobject)

omit [LispCase] in
theorem pending_of_not_restoring {lock : RegistryLock}
    (hlock : lock.isRestoring = false) : lock.pending = [] := by
  cases lock with
  | unlocked => rfl
  | loading current =>
      cases hrestore : current.restore with
      | none => simp [RegistryLock.pending, hrestore]
      | some entry => simp [RegistryLock.isRestoring, hrestore] at hlock
  | restoring remaining => cases hlock

theorem hookCalls_session (hinv : state.SessionInvariant)
    (hlock : state.loader.lock.isRestoring = false) (name : String)
    (status : ℤ) :
    ∀ call ∈ state.hookCalls name status,
      call.fn.library.session = state.loader.session := by
  intro call hcall
  obtain ⟨crate, onDumpPtr, hcrate, honDump, hslots⟩ := mem_hookCalls hcall
  obtain ⟨hdump, hlast⟩ := hinv.loader.hooks name crate hcrate
    (by simp [pending_of_not_restoring hlock]) onDumpPtr honDump
  rcases hslots with rfl | ⟨lastErrorPtr, hlastError, rfl⟩
  · exact hdump
  · exact hlast lastErrorPtr hlastError

theorem afterLoader (hinv : state.SessionInvariant) {action : LoaderAction}
    {loader : LoaderState}
    (hcondition : state.loader.RestoresFaithfully action)
    (houtcome : state.loader.Outcome action loader) :
    ({ state.logCalls (action.calls state.loader) with
        loader := loader
        threads :=
          if action.endsThreads then fun _ => []
          else state.threads } : ImageState n).SessionInvariant := by
  constructor
  · exact hinv.loader.afterOutcome hcondition houtcome
  · exact hinv.handles
  · intro thread frame hframe
    simp only at hframe
    split at hframe
    · cases hframe
    · rename_i hthreads
      have hcontinues : state.Continues
          { state.logCalls (action.calls state.loader) with
            loader := loader
            threads :=
              if action.endsThreads then fun _ => [] else state.threads } :=
        { session := houtcome.session_kept (Bool.eq_false_iff.mpr hthreads)
          published := houtcome.published_kept
          handles := fun index object hobject => ⟨object, hobject, rfl⟩ }
      exact hcontinues.frame (hinv.frames thread frame hframe)
  · intro session call hmem
    rcases List.mem_append.mp hmem with hold | hnew
    · exact hinv.calls session call hold
    · obtain ⟨made, hmade, heq⟩ := List.mem_map.mp hnew
      cases heq
      obtain ⟨symbol, rfl⟩ := loaderCalls_fn action state.loader _ hmade
      rfl

theorem afterOutcome {next : ImageState n} {action : ImageAction n}
    (hinv : state.SessionInvariant)
    (hcondition : state.RestoresFaithfully action)
    (houtcome : state.Outcome action next) : next.SessionInvariant := by
  have hrest : ∀ {thread : Fin n} {frame : Frame} {rest : List Frame},
      state.threads thread = frame :: rest →
        ∀ other ∈ rest, state.FrameInSession other := by
    intro thread frame rest htop other hother
    exact hinv.frames thread other (by simp [htop, hother])
  have htopFrame : ∀ {thread : Fin n} {frame : Frame} {rest : List Frame},
      state.threads thread = frame :: rest → state.FrameInSession frame := by
    intro thread frame rest htop
    exact hinv.frames thread frame (by simp [htop])
  cases houtcome with
  | loader action loader hstep =>
      exact hinv.afterLoader hcondition (LoaderState.step_outcome hstep)
  | refused => exact hinv
  | entered thread w args hpublished hsession =>
      apply hinv.afterSetFrames
      exact List.forall_mem_cons.mpr
        ⟨⟨hpublished, hsession⟩, hinv.frames thread⟩
  | unwound action thread w pending begun rest htop =>
      apply hinv.afterSetFrames
      exact List.forall_mem_cons.mpr ⟨trivial, hrest htop⟩
  | passed action thread w param pending begun rest htop =>
      obtain ⟨hpublished, hsession⟩ := htopFrame htop
      apply hinv.afterSetFrames
      exact List.forall_mem_cons.mpr ⟨⟨hpublished, hsession⟩, hrest htop⟩
  | gated action thread w token cls arg pending begun rest index object htop
      hobject hclass hverdict =>
      have hsame := object.cell.sameHandle_beginCall state.loader.session
        w.ctx.generation
      have hcontinues := continues_setCell hobject hsame
      apply (hinv.afterSetCell hobject hsame).afterSetFrames
      obtain ⟨hpublished, hsession⟩ := htopFrame htop
      refine List.forall_mem_cons.mpr
        ⟨⟨hpublished, hsession⟩, fun frame hframe => ?_⟩
      exact hcontinues.frame (hrest htop frame hframe)
  | invoked thread w begun rest htop =>
      obtain ⟨hpublished, hsession⟩ := htopFrame htop
      apply hinv.afterFrames
      · exact List.forall_mem_cons.mpr
          ⟨⟨hpublished, hsession⟩, hrest htop⟩
      · intro call hcall
        cases List.mem_singleton.mp hcall
        exact (hinv.wrapper_session hpublished).1.trans hsession
  | returnedOk thread transferred w begun rest htop =>
      obtain ⟨hpublished, hsession⟩ := htopFrame htop
      obtain ⟨hnext, hcontinues⟩ :=
        hinv.afterReturnValue transferred hpublished hsession
      apply hnext.afterSetFrames
      refine List.forall_mem_cons.mpr ⟨trivial, fun frame hframe => ?_⟩
      exact hcontinues.frame (hrest htop frame hframe)
  | returnedStatus thread status w begun rest htop =>
      obtain ⟨hpublished, hsession⟩ := htopFrame htop
      have hframes : ∀ frame ∈ Frame.unwinding begun :: rest,
          state.FrameInSession frame :=
        List.forall_mem_cons.mpr ⟨trivial, hrest htop⟩
      unfold returnCondition
      split
      · apply hinv.afterFrames _ _ _ hframes
        intro call hcall
        cases List.mem_singleton.mp hcall
        exact (hinv.wrapper_session hpublished).2.1.trans hsession
      · exact hinv.afterSetFrames _ _ hframes
  | left action thread frame rest htop =>
      exact hinv.afterSetFrames thread rest (hrest htop)
  | endedCall thread b begun rest object htop hobject =>
      have hsame := object.cell.sameHandle_endCall
      have hcontinues := continues_setCell hobject hsame
      apply (hinv.afterSetCell hobject hsame).afterRelease _
        (getElem_setCell hobject)
      · intro found hfound
        rw [Cell.endCall_target hfound]
        exact hsame.freeFn.symm
      · refine List.forall_mem_cons.mpr ⟨trivial, fun frame hframe => ?_⟩
        exact hcontinues.frame (hrest htop frame hframe)
  | freed thread handle object hobject =>
      have hsame := object.cell.sameHandle_free
      have hcontinues := continues_setCell hobject hsame
      apply (hinv.afterSetCell hobject hsame).afterRelease _
        (getElem_setCell hobject)
      · intro found hfound
        rw [Cell.free_target hfound]
        exact hsame.freeFn.symm
      · exact fun frame hframe =>
          hcontinues.frame (hinv.frames thread frame hframe)
  | released thread handle target rest object htop hobject hsession =>
      obtain ⟨found, hfound, htarget⟩ := htopFrame htop
      cases hobject.symm.trans hfound
      apply hinv.afterFrames _ _ _ (hrest htop)
      intro call hcall
      cases List.mem_singleton.mp hcall
      exact htarget.trans hsession
  | dumped thread =>
      apply hinv.afterSetFrames
      exact List.forall_mem_cons.mpr ⟨trivial, hinv.frames thread⟩
  | hookRun thread name status remaining rest htop hlock =>
      apply hinv.afterFrames
      · exact List.forall_mem_cons.mpr ⟨trivial, hrest htop⟩
      · exact hinv.hookCalls_session hlock name status

/-- When a restore has come to its end no entry is ahead. -/
theorem sessionSafe (hinv : state.SessionInvariant) : state.SessionSafe where
  calls := hinv.calls
  restored := by
    intro hlock name crate hcrate
    apply hinv.loader.restoring _ name crate hcrate
    · simp [hlock, RegistryLock.pending]
    · simp [hlock, RegistryLock.isRestoring]

end SessionInvariant

theorem initial_sessionInvariant (registry : Registry)
    (hempty : ∀ name, registry.crates name = none) :
    (initial n registry).SessionInvariant where
  loader :=
    { base := (initial_provenanceInvariant (n := n) registry hempty).loader
      ordered := fun name crate hcrate => by
        simp [initial, LoaderState.initial, hempty] at hcrate
      hooks := fun name crate hcrate => by
        simp [initial, LoaderState.initial, hempty] at hcrate
      loading := by simp [initial, LoaderState.initial]
      restoring := by
        simp [initial, LoaderState.initial, RegistryLock.isRestoring] }
  handles := by simp [initial]
  frames := by simp [initial]
  calls := by simp [initial]

end ImageState

end Case

/-! ## A crate with a dump hook -/

attribute [local instance] standardCase

def hookManifest (crate : String) : Datum :=
  .cons (.keyword "RULISP-MANIFEST") (.ofPlist
    [("SCHEMA", .integer 1), ("ABI", .integer 1),
      ("CRATE", .string crate), ("PREFIX", .string "my_demo_rulisp_"),
      ("FUNCTIONS", .ofList
        [.cons (.keyword "FN") (.ofPlist
          [("RUST-NAME", .string "checkpoint"),
            ("LISP-NAME", .string "checkpoint"),
            ("SYMBOL", .string "checkpoint"), ("PARAMS", .nil),
            ("RESULT", .keyword "UNIT")])]),
      ("ON-DUMP", .string "checkpoint")])

/-- A host that finds an artifact whose manifest declares `crate`. -/
def hookHost (crate : String) : LoadHost :=
  { demoHost [] with
    probedFile := some "target/debug/libmy_demo.so"
    dlopen := .ok
      { exports :=
          ["my_demo_rulisp_abi_version", "my_demo_rulisp_manifest",
            "my_demo_rulisp_last_error", "my_demo_rulisp_dealloc",
            "my_demo_rulisp_checkpoint"]
        abiVersion := 1
        raw := ""
        form := .ok (hookManifest crate) } }

/-- `my-demo` is loaded, the image is dumped and restored, its artifact is
found to declare `found`, and the restored image is dumped again. -/
def hookRun (found : String) : List (ImageAction 1) :=
  [.loader (.load (.load "target/debug/libmy_demo.so" none none)
      (hookHost "my-demo")),
    .loader (.publish none), .loader (.publish none), .loader (.publish none),
    .loader (.publish none), .loader .sweep,
    .loader (.restore ["my-demo"]),
    .loader (.restoreCrate "my-demo" (hookHost found)),
    .loader (.publish none), .loader (.publish none), .loader (.publish none),
    .loader (.publish none), .loader .sweep, .loader .restored,
    .dump (Fin.last 0), .dumpHook (Fin.last 0) 0]

end Rulisp
