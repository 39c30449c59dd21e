import Rulisp.LoadAtomicity
import Rulisp.SessionSafety

/-!
# Dump hooks

`%run-crate-dump-hooks` goes through `*crate-load-order*`, which is kept by
first loads only: a crate enters it before its first generation commits.
Loads and restores are whole calls here, since a dump comes after them.
-/

namespace Rulisp

open TransitionSystem

/-! ## The hook runner -/

/-- `%run-crate-dump-hooks`, from the names that are left. -/
def Registry.runDumpHooks (registry : Registry)
    (answers : String → HookAnswer) : List String → List HookRun
  | [] => []
  | name :: rest =>
      match registry.crates name with
      | none => runDumpHooks registry answers rest
      | some crate =>
          crate.runDumpHook name (answers name) ::
            runDumpHooks registry answers rest

def Registry.runCrateDumpHooks (registry : Registry)
    (answers : String → HookAnswer) : List HookRun :=
  registry.runDumpHooks answers registry.crateLoadOrder

/-- The hooks among the calls of a dump, with their crates. -/
def hooksCalled (runs : List HookRun) : List (String × ForeignPtr) :=
  runs.flatMap fun run => run.calls.filterMap fun
    | .onDump fn => some (run.crate, fn)
    | _ => none

/-! ## Sequences of loads and restores -/

/-- `loaded` has the crates in the order of the first loads that returned;
`current` is the generation of the last load that returned, unless the crate
is stubbed. -/
structure DumpState where
  session : ℕ
  copyCounter : ℕ
  registry : Registry
  loaded : List String
  current : String → Option Generation

/-- A reload of a restore, with the host's answers. -/
structure RestoreEntry where
  name : String
  host : LoadHost
  refusal : PublicationRefusal

inductive DumpAction
  | attempt (call : LoadCall) (host : LoadHost) (refusal : PublicationRefusal)
  /-- The image starts; the entries are in the order of `maphash`. -/
  | restore (entries : List RestoreEntry)

/-- The declared hook of a generation. -/
def Generation.hook (generation : Generation) : Option ForeignPtr :=
  generation.manifest.onDump.map fun sym =>
    { library := generation.library, symbol := generation.manifest.pfx ++ sym }

/-- The generation that a load commits. -/
def Registry.committed [LispCase] (registry : Registry) (host : LoadHost)
    (library : Library) (args : LoadArgs) : Option Generation :=
  match (registry.beginLoad host library args).2 with
  | .ok commit => some commit.generation
  | .error _ => none

namespace DumpState

def nextLibrary (state : DumpState) : Library where
  serial := state.copyCounter + 1
  session := state.session

/-- The hook of the current manifest of a loaded crate. -/
def hook (state : DumpState) (name : String) : Option ForeignPtr :=
  (state.current name).bind Generation.hook

/-- `%load-crate-locked`. -/
def load [LispCase] (state : DumpState) (host : LoadHost)
    (refusal : PublicationRefusal) (args : LoadArgs) :
    DumpState × LispResult String :=
  let opened := { state with copyCounter := state.copyCounter + 1 }
  match state.registry.loadCrateLocked host refusal state.nextLibrary args with
  | (registry, .error e) => ({ opened with registry := registry }, .error e)
  | (registry, .ok name) =>
      ({ opened with
          registry := registry
          loaded :=
            if name ∈ state.loaded then state.loaded
            else state.loaded ++ [name]
          current := Function.update state.current name
            (state.registry.committed host state.nextLibrary args) },
        .ok name)

/-- The function that `%restore-all-crates` gives to `maphash`. -/
def restoreEntry [LispCase]
    (state : DumpState) (entry : RestoreEntry) : DumpState :=
  match state.registry.crates entry.name with
  | none => state
  | some crate =>
      match state.load entry.host entry.refusal
        (LoaderState.restoreArgs entry.name crate) with
      | (next, .ok _) => next
      | (next, .error e) =>
          { next with
            registry := next.registry.stubCrate entry.name e
            current := Function.update next.current entry.name none }

/-- The mappings of the dumped image are gone when `maphash` begins. -/
def restored (state : DumpState) : DumpState :=
  { state with
    session := state.session + 1
    current := fun _ => none }

def step [LispCase] (state : DumpState) : DumpAction → Option DumpState
  | .attempt call host refusal =>
      match call.args state.registry with
      | .error _ => some state
      | .ok args => some (state.load host refusal args).1
  | .restore entries =>
      if (entries.map RestoreEntry.name).Perm state.registry.crateLoadOrder
      then some (entries.foldl restoreEntry state.restored)
      else none

end DumpState

def dumpSystem [LispCase] : System DumpState DumpAction where
  step := DumpState.step

def DumpState.initial (registry : Registry) : DumpState where
  session := 0
  copyCounter := 0
  registry := registry
  loaded := []
  current := fun _ => none

/-- What the slots of a crate hold when `generation` is its current one. -/
def Crate.Holds (crate : Crate) : Option Generation → Prop
  | some generation =>
      crate.libHandle = some generation.library ∧
        crate.onDumpPtr = generation.hook ∧
        crate.manifest = some generation.manifest ∧ crate.stubReason = none
  | none =>
      crate.libHandle = none ∧ crate.onDumpPtr = none ∧
        (crate.manifest = none ∨ crate.stubReason.isSome)

/-- A dump calls the declared hook of every loaded crate that is no stub
once, in the order of the first successful loads, and no other hook,
whatever the hooks answer. -/
structure DumpState.HooksInLoadOrder (state : DumpState) : Prop where
  called : ∀ answers,
    hooksCalled (state.registry.runCrateDumpHooks answers) =
      state.loaded.filterMap fun name => (state.hook name).map (name, ·)
  once : state.loaded.Nodup
  slots : ∀ name crate, state.registry.crates name = some crate →
    crate.Holds (state.current name)

/-! ## When the order is that of the first successful loads -/

namespace DumpState

/-- No crate that was entered after `name` has been loaded, unless `name` has
been too. -/
def InTurn (state : DumpState) (name : String) : Prop :=
  name ∈ state.loaded ∨
    ∀ later ∈ state.registry.crateLoadOrder.dropWhile (· ≠ name),
      later ∉ state.loaded

instance (state : DumpState) (name : String) : Decidable (state.InTurn name) :=
  inferInstanceAs (Decidable (_ ∨ _))

/-- A load that sets the crate's slots returns, and is in turn. -/
def Returns [LispCase] (state : DumpState) (host : LoadHost)
    (refusal : PublicationRefusal) (args : LoadArgs) : Prop :=
  match (state.registry.beginLoad host state.nextLibrary args).2 with
  | .error _ => True
  | .ok commit =>
      ¬ refusal.hits commit.ops ∧ host.sweepRefusal = none ∧
        state.InTurn commit.generation.crate

/-- An entry that is reloaded is reloaded under its own name. -/
def KeepsName [LispCase] (state : DumpState) (entry : RestoreEntry) : Prop :=
  match state.registry.crates entry.name with
  | none => True
  | some crate =>
      match (state.registry.beginLoad entry.host state.nextLibrary
        (LoaderState.restoreArgs entry.name crate)).2 with
      | .error _ => True
      | .ok commit => commit.generation.crate = entry.name

/-- Every entry of the restore keeps its name when its turn comes. -/
def KeepsNames [LispCase] : DumpState → List RestoreEntry → Prop
  | _, [] => True
  | state, entry :: rest =>
      state.KeepsName entry ∧ (state.restoreEntry entry).KeepsNames rest

end DumpState

def DumpAction.Regular [LispCase] (state : DumpState) : DumpAction → Prop
  | .attempt call host refusal =>
      match call.args state.registry with
      | .error _ => True
      | .ok args => state.Returns host refusal args
  | .restore entries => state.restored.KeepsNames entries

instance (refusal : PublicationRefusal) (ops : List PublishOp) :
    Decidable (PublicationRefusal.hits refusal ops) :=
  match refusal with
  | none => .isFalse id
  | some (_, _) => inferInstanceAs (Decidable (_ < _))

instance [LispCase] (state : DumpState) (host : LoadHost)
    (refusal : PublicationRefusal) (args : LoadArgs) :
    Decidable (state.Returns host refusal args) := by
  unfold DumpState.Returns
  split <;> infer_instance

instance [LispCase] (state : DumpState) (entry : RestoreEntry) :
    Decidable (state.KeepsName entry) := by
  unfold DumpState.KeepsName
  split
  · infer_instance
  · split <;> infer_instance

instance DumpState.KeepsNames.decidable [LispCase] :
    ∀ state entries, Decidable (DumpState.KeepsNames state entries)
  | _, [] => .isTrue trivial
  | state, entry :: rest =>
      let _ := decidable (state.restoreEntry entry) rest
      inferInstanceAs (Decidable (_ ∧ _))

instance [LispCase] (state : DumpState) (action : DumpAction) :
    Decidable (action.Regular state) := by
  cases action with
  | attempt call host refusal =>
      unfold DumpAction.Regular
      simp only
      split <;> infer_instance
  | restore entries => exact DumpState.KeepsNames.decidable _ _

/-! ## What a load can do -/

namespace Registry

/-- How a load ends: refused before its slots are set, cut off after that, or
returning. -/
inductive LoadEnds [LispCase] (registry : Registry) (host : LoadHost)
    (refusal : PublicationRefusal) (library : Library) (args : LoadArgs) :
    Registry × LispResult String → Prop
  | refused (next : Registry) (e : LoadCondition)
      (hbegin : (registry.beginLoad host library args).2 = .error e)
      (hnext : registry.AfterRefusal next) :
      LoadEnds registry host refusal library args (next, .error e)
  | cut (begun : Registry) (commit : Commit) (kind : HostError)
      (hbegin : registry.beginLoad host library args = (begun, .ok commit))
      (hcut : PublicationRefusal.hits refusal commit.ops ∨
        host.sweepRefusal ≠ none) :
      LoadEnds registry host refusal library args
        ((publishAll commit.generation.crate commit.package refusal commit.ops
          begun).1, hostError kind)
  | returned (opened : Opened) (prepared : Prepared) (begun : Registry)
      (commit : Commit)
      (hbegin : registry.beginLoad host library args = (begun, .ok commit))
      (hgeneration : commit.generation =
        { crate := opened.manifest.crate
          number := prepared.ctx.generation
          library := library
          manifest := opened.manifest })
      (hprepare : prepareGeneration host library
        (registry.register opened.manifest.crate args.package)
        (registry.entryFor args opened) opened.image opened.manifest =
          .ok prepared) :
      LoadEnds registry host refusal library args
        (registry.afterLoad host library args opened prepared,
          .ok opened.manifest.crate)

theorem loadCrateLocked_ends [LispCase] (registry : Registry) (host : LoadHost)
    (refusal : PublicationRefusal) (library : Library) (args : LoadArgs) :
    registry.LoadEnds host refusal library args
      (registry.loadCrateLocked host refusal library args) := by
  cases hbegin : registry.beginLoad host library args with
  | mk begun result =>
      cases result with
      | error e =>
          have hend : registry.loadCrateLocked host refusal library args =
              (begun, .error e) := by
            simp only [loadCrateLocked, hbegin]
          rw [hend]
          exact .refused begun e (by rw [hbegin])
            (beginLoad_eq_error hbegin)
      | ok commit =>
          have hrefused := publishAll_refused_iff commit.generation.crate
            commit.package refusal commit.ops begun
          have hcommitted := beginLoad_eq_ok hbegin
          have hcut : ∀ kind, PublicationRefusal.hits refusal commit.ops ∨
              host.sweepRefusal ≠ none →
              registry.LoadEnds host refusal library args
                ((publishAll commit.generation.crate commit.package refusal
                  commit.ops begun).1, hostError kind) :=
            fun kind hkind => .cut begun commit kind hbegin hkind
          unfold loadCrateLocked
          simp only [hbegin]
          generalize hpublish : publishAll commit.generation.crate
            commit.package refusal commit.ops begun = published at *
          obtain ⟨next, refused⟩ := published
          cases refused with
          | some kind =>
              simp only [reduceCtorEq, false_iff, not_not] at hrefused
              exact hcut kind (.inl hrefused)
          | none =>
              cases hsweep : host.sweepRefusal with
              | some kind => exact hcut kind (.inr (by simp [hsweep]))
              | none =>
                  have hfold := publishAll_eq_foldl hpublish
                  cases hcommitted with
                  | committed opened prepared hadmitted hprepare =>
                      subst hfold
                      exact .returned opened prepared _ _ hbegin rfl hprepare

/-- What every single operation keeps, a publication keeps wherever it ends. -/
theorem publishAll_invariant (inv : Registry → Prop) {name package : String}
    (hpublish : ∀ registry op, inv registry →
      inv (registry.publish name package op))
    (refusal : PublicationRefusal) (ops : List PublishOp)
    (registry : Registry) (hinv : inv registry) :
    inv (publishAll name package refusal ops registry).1 := by
  induction ops generalizing refusal registry with
  | nil => exact hinv
  | cons op rest ih =>
      have hnext := hpublish registry op hinv
      unfold publishAll
      split
      · exact ih _ _ hnext
      · cases refusal with
        | none => exact ih _ _ hnext
        | some refused =>
            obtain ⟨count, kind⟩ := refused
            cases count with
            | zero => exact hinv
            | succ count => exact ih _ _ hnext

/-- `next` differs from `registry` in bindings and in one entry only. -/
structure SameButEntry (registry next : Registry) (name : String) : Prop where
  order : next.crateLoadOrder = registry.crateLoadOrder
  others : ∀ other, other ≠ name → next.crates other = registry.crates other
  entered : (registry.crates name).isSome → (next.crates name).isSome

theorem SameButEntry.refl (registry : Registry) (name : String) :
    registry.SameButEntry registry name :=
  ⟨rfl, fun _ _ => rfl, id⟩

theorem SameButEntry.trans {first second third : Registry} {name : String}
    (hfirst : first.SameButEntry second name)
    (hsecond : second.SameButEntry third name) :
    first.SameButEntry third name := by
  constructor
  · exact hsecond.order.trans hfirst.order
  · intro other hother
    exact (hsecond.others other hother).trans (hfirst.others other hother)
  · exact fun hentry => hsecond.entered (hfirst.entered hentry)

theorem SameButEntry.setCrate (registry : Registry) (name : String)
    (crate : Crate) :
    registry.SameButEntry (registry.setCrate name crate) name := by
  constructor
  · rfl
  · intro other hother
    simp [crates_setCrate, hother]
  · intro _
    simp [crates_setCrate]

theorem SameButEntry.publish (registry : Registry) (name package : String)
    (op : PublishOp) :
    registry.SameButEntry (registry.publish name package op) name := by
  cases op with
  | setSymbols symbols =>
      unfold Registry.publish
      cases registry.crates name with
      | none => exact .refl registry name
      | some crate => exact .setCrate registry name _
  | _ => exact ⟨rfl, fun _ _ => rfl, id⟩

theorem SameButEntry.publishAll (registry : Registry) (name package : String)
    (refusal : PublicationRefusal) (ops : List PublishOp) :
    registry.SameButEntry (publishAll name package refusal ops registry).1
      name := by
  apply publishAll_invariant fun later => registry.SameButEntry later name
  · intro before op hbefore
    exact hbefore.trans (.publish before name package op)
  · exact .refl registry name

theorem SameButEntry.stubCrate (registry : Registry) (name : String)
    (e : LoadCondition) :
    registry.SameButEntry (registry.stubCrate name e) name := by
  unfold Registry.stubCrate
  cases registry.crates name with
  | none => exact .refl registry name
  | some crate =>
      have hset := SameButEntry.setCrate registry name (crate.stubSlots e)
      exact ⟨hset.order, hset.others, hset.entered⟩

theorem SameButEntry.published (registry : Registry) (name package : String)
    (prepared : Prepared) (previous : List Symbol) :
    registry.SameButEntry
      (registry.published name package prepared previous) name := by
  unfold Registry.published
  generalize publication prepared previous = ops
  induction ops using List.reverseRecOn with
  | nil => exact .refl registry name
  | append_singleton before op ih =>
      rw [List.foldl_concat]
      exact ih.trans (.publish _ _ _ op)

theorem SameButEntry.afterLoad [LispCase]
    (registry : Registry) (host : LoadHost)
    (library : Library) (args : LoadArgs) (opened : Opened)
    (prepared : Prepared) :
    (registry.register opened.manifest.crate args.package).SameButEntry
      (registry.afterLoad host library args opened prepared)
      opened.manifest.crate := by
  have hset := SameButEntry.setCrate
    (registry.register opened.manifest.crate args.package)
    opened.manifest.crate
    ((registry.entryFor args opened).commitSlots host library opened prepared)
  exact hset.trans (.published _ _ _ _ _)

end Registry

/-- The hook pointer of a generation is that of its declared hook. -/
theorem prepareGeneration_hook [LispCase] {host : LoadHost} {library : Library}
    {registry : Registry} {crate : Crate} {image : LibraryImage}
    {manifest : Manifest} {prepared : Prepared} (name : String) (number : ℕ)
    (hprepare : prepareGeneration host library registry crate image manifest =
      .ok prepared) :
    prepared.onDumpPtr =
      Generation.hook { crate := name, number, library, manifest } := by
  obtain ⟨_, -, hprepare⟩ := LispResult.bind_eq_ok.mp hprepare
  obtain ⟨_, -, hprepare⟩ := LispResult.bind_eq_ok.mp hprepare
  obtain ⟨onDumpPtr, honDump, hprepare⟩ := LispResult.bind_eq_ok.mp hprepare
  obtain ⟨_, -, hprepare⟩ := LispResult.bind_eq_ok.mp hprepare
  obtain ⟨_, -, hprepare⟩ := LispResult.bind_eq_ok.mp hprepare
  obtain ⟨_, -, hprepare⟩ := LispResult.bind_eq_ok.mp hprepare
  obtain ⟨_, -, hprepare⟩ := LispResult.bind_eq_ok.mp hprepare
  cases hprepare
  unfold Generation.hook
  cases hdeclared : manifest.onDump with
  | none =>
      rw [hdeclared] at honDump
      cases honDump
      rfl
  | some sym =>
      rw [hdeclared] at honDump
      obtain ⟨ptr, hptr, honDump⟩ := LispResult.bind_eq_ok.mp honDump
      cases honDump
      exact congrArg some (LibraryImage.resolve_eq_ok hptr)

/-- Only a load with a path gets to a commit. -/
theorem beginLoad_path [LispCase] {registry begun : Registry} {host : LoadHost}
    {library : Library} {args : LoadArgs} {commit : Commit}
    (hbegin : registry.beginLoad host library args = (begun, .ok commit)) :
    args.path.isSome := by
  cases Registry.beginLoad_eq_ok hbegin with
  | committed opened prepared hadmitted hprepare =>
      obtain ⟨copied, hcopied, -⟩ := LispResult.bind_eq_ok.mp hadmitted
      obtain ⟨_, -, hcopied⟩ := LispResult.bind_eq_ok.mp hcopied
      obtain ⟨path, hprobe, -⟩ := LispResult.bind_eq_ok.mp hcopied
      cases hpath : args.path with
      | none =>
          rw [hpath] at hprobe
          cases hprobe
      | some path => rfl

/-! ## The invariant -/

namespace DumpState

/-- `pending` are the entries whose reload is still to come. -/
structure Invariant (state : DumpState) (pending : List String) : Prop where
  ordered : state.registry.Ordered
  entered : ∀ name ∈ state.registry.crateLoadOrder,
    (state.registry.crates name).isSome
  nodup : state.registry.crateLoadOrder.Nodup
  inOrder : state.registry.crateLoadOrder.filter (· ∈ state.loaded) =
    state.loaded
  slots : ∀ name crate, name ∉ pending →
    state.registry.crates name = some crate →
      crate.Holds (state.current name)
  paths : ∀ name crate, state.registry.crates name = some crate →
    crate.sourcePath.isSome → name ∈ state.loaded
  currents : ∀ name, (state.current name).isSome → name ∈ state.loaded

namespace Invariant

variable {state : DumpState} {pending : List String}

theorem mem_order (hinv : state.Invariant pending) {name : String}
    (hloaded : name ∈ state.loaded) :
    name ∈ state.registry.crateLoadOrder := by
  rw [← hinv.inOrder] at hloaded
  exact List.mem_of_mem_filter hloaded

/-- Entering a crate. -/
theorem register [LispCase] (hinv : state.Invariant pending) (name : String)
    (package : Option String) :
    Invariant { state with registry := state.registry.register name package }
      pending := by
  cases hentry : state.registry.crates name with
  | some crate =>
      rw [Registry.register_eq_self package (by simp [hentry])]
      exact hinv
  | none =>
      have hfresh : name ∉ state.registry.crateLoadOrder := by
        intro hmem
        have hsome := hinv.entered name hmem
        simp [hentry] at hsome
      have hloaded : name ∉ state.loaded := fun h => hfresh (hinv.mem_order h)
      have horder : (state.registry.register name package).crateLoadOrder =
          state.registry.crateLoadOrder ++ [name] := by
        simp [Registry.register, hentry]
      constructor
      case ordered => exact hinv.ordered.register name package
      case entered =>
        intro other hother
        by_cases hname : other = name
        · subst hname
          simp [Registry.crates_register_self]
        · simp only [Registry.crates_register_of_ne package hname]
          rw [horder] at hother
          apply hinv.entered other
          simpa [hname] using hother
      case nodup =>
        rw [horder]
        exact hinv.nodup.append (List.nodup_singleton name)
          (List.disjoint_singleton.mpr hfresh)
      case inOrder =>
        rw [horder, List.filter_append, hinv.inOrder]
        simp [hloaded]
      case slots =>
        intro other crate hother hcrate
        rcases Registry.crates_register_cases hcrate with
          hold | ⟨rfl, package, rfl⟩
        · exact hinv.slots other crate hother hold
        · have hnone : state.current other = none := by
            rw [← Option.not_isSome_iff_eq_none]
            exact fun hsome => hloaded (hinv.currents other hsome)
          simp only [hnone]
          exact ⟨rfl, rfl, .inl rfl⟩
      case paths =>
        intro other crate hcrate hpath
        rcases Registry.crates_register_cases hcrate with
          hold | ⟨-, package, rfl⟩
        · exact hinv.paths other crate hold hpath
        · simp [makeCrate] at hpath
      case currents => exact hinv.currents

/-- A change of one entry, whose slots are left open. -/
theorem reopen (hinv : state.Invariant pending) {next : Registry}
    {name : String} (hsame : state.registry.SameButEntry next name)
    (hname : name ∈ state.registry.crateLoadOrder)
    (hpaths : ∀ crate, next.crates name = some crate →
      crate.sourcePath.isSome → name ∈ state.loaded) :
    Invariant { state with registry := next } (name :: pending) := by
  constructor
  case ordered =>
    intro other crate hcrate
    simp only [hsame.order]
    by_cases hother : other = name
    · rw [hother]
      exact hname
    · simp only [hsame.others other hother] at hcrate
      exact hinv.ordered other crate hcrate
  case entered =>
    intro other hother
    simp only [hsame.order] at hother
    have hentered := hinv.entered other hother
    by_cases hne : other = name
    · subst hne
      exact hsame.entered hentered
    · simp only [hsame.others other hne]
      exact hentered
  case nodup =>
    rw [hsame.order]
    exact hinv.nodup
  case inOrder =>
    rw [hsame.order]
    exact hinv.inOrder
  case slots =>
    intro other crate hother hcrate
    rw [List.mem_cons, not_or] at hother
    simp only [hsame.others other hother.1] at hcrate
    exact hinv.slots other crate hother.2 hcrate
  case paths =>
    intro other crate hcrate hpath
    by_cases hne : other = name
    · subst hne
      exact hpaths crate hcrate hpath
    · simp only [hsame.others other hne] at hcrate
      exact hinv.paths other crate hcrate hpath
  case currents => exact hinv.currents

/-- The open entry gets its current generation, or none. -/
theorem settle {opened : List String} (hinv : state.Invariant opened)
    {name : String} {value : Option Generation}
    (hopened : ∀ other ∈ opened, other = name ∨ other ∈ pending)
    (hslots : ∀ crate, state.registry.crates name = some crate →
      crate.Holds value)
    (hloaded : value.isSome → name ∈ state.loaded) :
    Invariant
      { state with current := Function.update state.current name value }
      pending := by
  constructor
  case ordered => exact hinv.ordered
  case entered => exact hinv.entered
  case nodup => exact hinv.nodup
  case inOrder => exact hinv.inOrder
  case slots =>
    intro other crate hother hcrate
    by_cases hne : other = name
    · subst hne
      simp only [Function.update_self]
      exact hslots crate hcrate
    · have hsettled : other ∉ opened := by
        intro hmem
        exact (hopened other hmem).elim hne hother
      simp only [Function.update_of_ne hne]
      exact hinv.slots other crate hsettled hcrate
  case paths => exact hinv.paths
  case currents =>
    intro other hsome
    by_cases hne : other = name
    · subst hne
      simp only [Function.update_self] at hsome
      exact hloaded hsome
    · simp only [Function.update_of_ne hne] at hsome
      exact hinv.currents other hsome

end Invariant

/-- A list filtered by membership in `loaded`, when the next one to be loaded
has nothing loaded behind it. -/
theorem filter_mem_append {order loaded : List String} {name : String}
    (hnodup : order.Nodup) (hname : name ∈ order)
    (horder : order.filter (· ∈ loaded) = loaded)
    (hlater : ∀ later ∈ order.dropWhile (· ≠ name), later ∉ loaded) :
    order.filter (· ∈ loaded ++ [name]) = loaded ++ [name] := by
  obtain ⟨before, after, hsplit, hfresh⟩ := List.eq_append_cons_of_mem hname
  have hdrop : order.dropWhile (· ≠ name) = name :: after := by
    rw [hsplit, List.dropWhile_append_of_pos]
    · simp
    · intro other hother
      simp only [ne_eq, decide_eq_true_eq]
      rintro rfl
      exact hfresh hother
  rw [hdrop] at hlater
  have hafter : name ∉ after := by
    rw [hsplit] at hnodup
    exact (List.nodup_cons.mp hnodup.of_append_right).1
  have hbefore : before.filter (· ∈ loaded) = loaded := by
    have htail : (name :: after).filter (· ∈ loaded) = [] := by
      rw [List.filter_eq_nil_iff]
      intro later hmem
      simpa using hlater later hmem
    rw [hsplit, List.filter_append, htail, List.append_nil] at horder
    exact horder
  have hkeeps : before.filter (· ∈ loaded ++ [name]) =
      before.filter (· ∈ loaded) := by
    apply List.filter_congr
    intro other hother
    have hne : other ≠ name := by
      rintro rfl
      exact hfresh hother
    simp [hne]
  have hrest : after.filter (· ∈ loaded ++ [name]) = [] := by
    rw [List.filter_eq_nil_iff]
    intro later hmem
    have hnot := hlater later (List.mem_cons_of_mem _ hmem)
    have hne : later ≠ name := by
      rintro rfl
      exact hafter hmem
    simp [hnot, hne]
  rw [hsplit, List.filter_append, hkeeps, hbefore, List.filter_cons_of_pos,
    hrest]
  simp

namespace Invariant

variable {state : DumpState} {pending : List String}

/-- A crate that is loaded in its turn. -/
theorem enter (hinv : state.Invariant pending) {name : String}
    (hname : name ∈ state.registry.crateLoadOrder)
    (hturn : state.InTurn name) :
    Invariant
      { state with
        loaded :=
          if name ∈ state.loaded then state.loaded
          else state.loaded ++ [name] }
      pending := by
  split
  · exact hinv
  · rename_i hfresh
    have hlater := hturn.resolve_left hfresh
    constructor
    case ordered => exact hinv.ordered
    case entered => exact hinv.entered
    case nodup => exact hinv.nodup
    case inOrder =>
      exact filter_mem_append hinv.nodup hname hinv.inOrder hlater
    case slots => exact hinv.slots
    case paths =>
      intro other crate hcrate hpath
      exact List.mem_append_left _ (hinv.paths other crate hcrate hpath)
    case currents =>
      intro other hsome
      exact List.mem_append_left _ (hinv.currents other hsome)

theorem counter (hinv : state.Invariant pending) (session counter : ℕ) :
    Invariant { state with session := session, copyCounter := counter }
      pending :=
  ⟨hinv.ordered, hinv.entered, hinv.nodup, hinv.inOrder, hinv.slots,
    hinv.paths, hinv.currents⟩

theorem afterRefusal [LispCase]
    (hinv : state.Invariant pending) {next : Registry}
    (hnext : state.registry.AfterRefusal next) :
    Invariant { state with registry := next } pending := by
  rcases hnext with rfl | ⟨name, package, rfl⟩
  · exact hinv
  · exact hinv.register name package

/-- Stubbing settles an entry. -/
theorem stub {opened : List String} (hinv : state.Invariant opened)
    {name : String} (e : LoadCondition)
    (hopened : ∀ other ∈ opened, other = name ∨ other ∈ pending) :
    Invariant
      { state with
        registry := state.registry.stubCrate name e
        current := Function.update state.current name none }
      pending := by
  have hsame := Registry.SameButEntry.stubCrate state.registry name e
  cases hentry : state.registry.crates name with
  | none =>
      have hstub : state.registry.stubCrate name e = state.registry := by
        simp [Registry.stubCrate, hentry]
      rw [hstub]
      refine hinv.settle hopened ?_ (by simp)
      intro crate hcrate
      simp [hentry] at hcrate
  | some before =>
      have hcrate : (state.registry.stubCrate name e).crates name =
          some (before.stubSlots e) := by
        simp [Registry.crates_stubCrate, hentry]
      have hopen := hinv.reopen hsame (hinv.ordered name before hentry)
        (by
          intro crate hstubbed hpath
          cases hcrate.symm.trans hstubbed
          exact hinv.paths name before hentry hpath)
      refine hopen.settle ?_ ?_ (by simp)
      · intro other hother
        rcases List.mem_cons.mp hother with rfl | hmem
        · exact .inl rfl
        · exact hopened other hmem
      · intro crate hstubbed
        cases hcrate.symm.trans hstubbed
        exact ⟨rfl, rfl, .inr rfl⟩

theorem inTurn_register [LispCase] {name : String} (package : Option String)
    (hturn : state.InTurn name) :
    InTurn { state with registry := state.registry.register name package }
      name := by
  by_cases hloaded : name ∈ state.loaded
  · exact .inl hloaded
  · have hlater := hturn.resolve_left hloaded
    right
    intro later hmem
    unfold Registry.register at hmem
    split at hmem
    · exact hlater later hmem
    · simp only [List.dropWhile_append] at hmem
      split at hmem
      · have hlast : later = name := by
          simpa using List.dropWhile_subset _ hmem
        rw [hlast]
        exact hloaded
      · rcases List.mem_append.mp hmem with hold | hlast
        · exact hlater later hold
        · rw [List.mem_singleton.mp hlast]
          exact hloaded

/-- A load that returns settles its crate. -/
theorem returned [LispCase] (hinv : state.Invariant pending) {host : LoadHost}
    {library : Library} {args : LoadArgs} {opened : Opened}
    {prepared : Prepared} {remaining : List String}
    (hprepare : prepareGeneration host library
      (state.registry.register opened.manifest.crate args.package)
      (state.registry.entryFor args opened) opened.image opened.manifest =
        .ok prepared)
    (hturn : state.InTurn opened.manifest.crate)
    (hpending : ∀ other ∈ pending,
      other = opened.manifest.crate ∨ other ∈ remaining) :
    Invariant
      { state with
        registry := state.registry.afterLoad host library args opened prepared
        loaded :=
          if opened.manifest.crate ∈ state.loaded then state.loaded
          else state.loaded ++ [opened.manifest.crate]
        current := Function.update state.current opened.manifest.crate
          (some
            { crate := opened.manifest.crate
              number := prepared.ctx.generation
              library := library
              manifest := opened.manifest }) }
      remaining := by
  have hregistered := hinv.register opened.manifest.crate args.package
  have hentry := state.registry.crates_register_self opened.manifest.crate
    args.package
  have hname := hregistered.ordered _ _ hentry
  have hentered := hregistered.enter hname
    (inTurn_register args.package hturn)
  have hloaded : opened.manifest.crate ∈
      (if opened.manifest.crate ∈ state.loaded then state.loaded
        else state.loaded ++ [opened.manifest.crate]) := by
    split
    · assumption
    · simp
  have hopen := hentered.reopen
    (.afterLoad state.registry host library args opened prepared) hname
    (fun _ _ _ => hloaded)
  refine hopen.settle ?_ ?_ (fun _ => hloaded)
  · intro other hother
    rcases List.mem_cons.mp hother with rfl | hmem
    · exact .inl rfl
    · exact hpending other hmem
  · intro crate hcrate
    cases hcrate.symm.trans Registry.crates_afterLoad_self
    exact ⟨rfl, prepareGeneration_hook _ _ hprepare, rfl, rfl⟩

/-- An entry without a crate has no slots. -/
theorem vacant {name : String} (hinv : state.Invariant (name :: pending))
    (hvacant : state.registry.crates name = none) :
    state.Invariant pending := by
  refine ⟨hinv.ordered, hinv.entered, hinv.nodup, hinv.inOrder, ?_,
    hinv.paths, hinv.currents⟩
  intro other crate hother hcrate
  have hne : other ≠ name := by
    rintro rfl
    simp [hvacant] at hcrate
  exact hinv.slots other crate (by simp [hne, hother]) hcrate

theorem afterLoad [LispCase] (hinv : state.Invariant []) {host : LoadHost}
    {refusal : PublicationRefusal} {args : LoadArgs}
    (hreturns : state.Returns host refusal args) :
    (state.load host refusal args).1.Invariant [] := by
  have hcounted := hinv.counter state.session (state.copyCounter + 1)
  have hends := state.registry.loadCrateLocked_ends host refusal
    state.nextLibrary args
  unfold DumpState.load
  generalize hload : state.registry.loadCrateLocked host refusal
    state.nextLibrary args = result at hends ⊢
  unfold DumpState.Returns at hreturns
  cases hends with
  | refused next e hbegin hnext => exact hcounted.afterRefusal hnext
  | cut begun commit kind hbegin hcut =>
      simp only [hbegin] at hreturns
      rcases hcut with hhits | hsweep
      · exact absurd hhits hreturns.1
      · exact absurd hreturns.2.1 hsweep
  | returned opened prepared begun commit hbegin hgeneration hprepare =>
      have hcommitted : state.registry.committed host state.nextLibrary args =
          some commit.generation := by
        simp only [Registry.committed, hbegin]
      simp only [hbegin, hgeneration] at hreturns
      simp only [hcommitted, hgeneration]
      exact hcounted.returned hprepare hreturns.2.2 (by simp)

/-- A load that is cut off leaves the slots of its crate open. -/
theorem interrupted [LispCase]
    (hinv : state.Invariant pending) {host : LoadHost}
    {library : Library} {args : LoadArgs} {begun : Registry} {commit : Commit}
    (refusal : PublicationRefusal)
    (hcommitted : state.registry.Committed host library args begun commit)
    (hloaded : commit.generation.crate ∈ state.loaded) :
    Invariant
      { state with
        registry := (Registry.publishAll commit.generation.crate
          commit.package refusal commit.ops begun).1 }
      (commit.generation.crate :: pending) := by
  cases hcommitted with
  | committed opened prepared hadmitted hprepare =>
      have hregistered := hinv.register opened.manifest.crate args.package
      have hname := hregistered.ordered _ _
        (state.registry.crates_register_self opened.manifest.crate
          args.package)
      have hset := Registry.SameButEntry.setCrate
        (state.registry.register opened.manifest.crate args.package)
        opened.manifest.crate
        ((state.registry.crateFor opened.manifest.crate
          args.package).commitSlots host library opened prepared)
      have hsame := hset.trans (.publishAll _ opened.manifest.crate
        (state.registry.crateFor opened.manifest.crate args.package).package
        refusal
        (publication prepared (state.registry.crateFor opened.manifest.crate
          args.package).symbols))
      exact hregistered.reopen hsame hname (fun _ _ _ => hloaded)

/-- The reload of one entry that keeps its name. -/
theorem afterEntry [LispCase] {entry : RestoreEntry} {remaining : List String}
    (hinv : state.Invariant (entry.name :: remaining))
    (hkeeps : state.KeepsName entry) :
    (state.restoreEntry entry).Invariant remaining := by
  have hcounted := hinv.counter state.session (state.copyCounter + 1)
  unfold DumpState.KeepsName at hkeeps
  unfold DumpState.restoreEntry
  cases hentry : state.registry.crates entry.name with
  | none => exact hinv.vacant hentry
  | some crate =>
      simp only [hentry] at hkeeps
      have hends := state.registry.loadCrateLocked_ends entry.host
        entry.refusal state.nextLibrary
        (LoaderState.restoreArgs entry.name crate)
      unfold DumpState.load
      simp only
      generalize hload : state.registry.loadCrateLocked entry.host
        entry.refusal state.nextLibrary
        (LoaderState.restoreArgs entry.name crate) = result at hends ⊢
      cases hends with
      | refused next e hbegin hnext =>
          exact (hcounted.afterRefusal hnext).stub e (by simp)
      | cut begun commit kind hbegin hcut =>
          simp only [hbegin] at hkeeps
          have hloaded : entry.name ∈ state.loaded :=
            hinv.paths _ crate hentry (beginLoad_path hbegin)
          have hopen := hcounted.interrupted entry.refusal
            (Registry.beginLoad_eq_ok hbegin) (by rw [hkeeps]; exact hloaded)
          rw [hkeeps] at hopen
          rw [hkeeps]
          exact hopen.stub (.hostError kind) (by simp)
      | returned opened prepared begun commit hbegin hgeneration hprepare =>
          have hcommitted : state.registry.committed entry.host
              state.nextLibrary (LoaderState.restoreArgs entry.name crate) =
                some commit.generation := by
            simp only [Registry.committed, hbegin]
          simp only [hbegin, hgeneration] at hkeeps
          simp only [hcommitted, hgeneration]
          have hloaded : entry.name ∈ state.loaded :=
            hinv.paths _ crate hentry (beginLoad_path hbegin)
          refine hcounted.returned hprepare ?_ ?_
          · rw [hkeeps]
            exact .inl hloaded
          · intro other hother
            rw [hkeeps]
            simpa using hother

theorem afterEntries [LispCase] {entries : List RestoreEntry}
    (hinv : state.Invariant (entries.map RestoreEntry.name))
    (hkeeps : state.KeepsNames entries) :
    (entries.foldl restoreEntry state).Invariant [] := by
  induction entries generalizing state with
  | nil => exact hinv
  | cons entry rest ih =>
      rw [List.foldl_cons]
      exact ih (hinv.afterEntry hkeeps.1) hkeeps.2

/-- When the image starts every entry is pending. -/
theorem restored (hinv : state.Invariant []) {names : List String}
    (hnames : names.Perm state.registry.crateLoadOrder) :
    state.restored.Invariant names := by
  constructor
  case ordered => exact hinv.ordered
  case entered => exact hinv.entered
  case nodup => exact hinv.nodup
  case inOrder => exact hinv.inOrder
  case slots =>
    intro name crate hname hcrate
    have hmem := hnames.mem_iff.mpr (hinv.ordered name crate hcrate)
    exact absurd hmem hname
  case paths => exact hinv.paths
  case currents =>
    intro name hsome
    simp [DumpState.restored] at hsome

theorem afterStep [LispCase] (hinv : state.Invariant []) {action : DumpAction}
    {next : DumpState} (hregular : action.Regular state)
    (hstep : dumpSystem.step state action = some next) :
    next.Invariant [] := by
  cases action with
  | attempt call host refusal =>
      simp only [dumpSystem, step] at hstep
      simp only [DumpAction.Regular] at hregular
      cases hargs : call.args state.registry with
      | error e =>
          simp only [hargs, Option.some.injEq] at hstep
          exact hstep ▸ hinv
      | ok args =>
          simp only [hargs, Option.some.injEq] at hstep
          simp only [hargs] at hregular
          exact hstep ▸ hinv.afterLoad hregular
  | restore entries =>
      simp only [dumpSystem, step] at hstep
      split at hstep
      · rename_i hnames
        cases hstep
        exact (hinv.restored hnames).afterEntries hregular
      · cases hstep

end Invariant

theorem initial_invariant {registry : Registry}
    (hcrates : ∀ name, registry.crates name = none)
    (horder : registry.crateLoadOrder = []) :
    (initial registry).Invariant [] := by
  constructor
  case ordered =>
    intro name crate hcrate
    simp [initial, hcrates] at hcrate
  case entered =>
    intro name hname
    simp [initial, horder] at hname
  case nodup => simp [initial, horder]
  case inOrder => simp [initial, horder]
  case slots =>
    intro name crate _ hcrate
    simp [initial, hcrates] at hcrate
  case paths =>
    intro name crate hcrate
    simp [initial, hcrates] at hcrate
  case currents =>
    intro name hsome
    simp [initial] at hsome

end DumpState

/-! ## What a dump calls -/

/-- A hook is called when the slots have one, whatever it answers. -/
theorem Crate.hooksCalled_runDumpHook (crate : Crate) (name : String)
    (answer : HookAnswer) :
    hooksCalled [crate.runDumpHook name answer] =
      match crate.onDumpPtr, crate.libHandle with
      | some onDumpPtr, some _ => [(name, onDumpPtr)]
      | _, _ => [] := by
  unfold Crate.runDumpHook hooksCalled readCrateLastError
  cases crate.onDumpPtr with
  | none => rfl
  | some onDumpPtr =>
      cases crate.libHandle with
      | none => rfl
      | some library =>
          cases answer.call with
          | error e => rfl
          | ok status =>
              by_cases hstatus : status = 0
              · simp [hstatus]
              · simp only [hstatus, if_false]
                cases crate.lastErrorPtr with
                | none => rfl
                | some lastErrorPtr =>
                    cases answer.lastError with
                    | error e => rfl
                    | ok read => rfl

/-- The slots of a settled crate have the hook of its current generation. -/
theorem Crate.Holds.hooksCalled {crate : Crate}
    {generation : Option Generation} (hholds : crate.Holds generation)
    (name : String) (answer : HookAnswer) :
    Rulisp.hooksCalled [crate.runDumpHook name answer] =
      ((generation.bind Generation.hook).map (name, ·)).toList := by
  rw [Crate.hooksCalled_runDumpHook]
  cases generation with
  | none =>
      obtain ⟨-, honDump, -⟩ := hholds
      rw [honDump]
      rfl
  | some generation =>
      obtain ⟨hlibrary, honDump, -⟩ := hholds
      rw [hlibrary, honDump]
      cases hhook : generation.hook with
      | none => simp [hhook]
      | some fn => simp [hhook]

/-- The hooks that a dump calls, from the names that are left. -/
theorem DumpState.Invariant.hooksCalled {state : DumpState}
    (hinv : state.Invariant []) (answers : String → HookAnswer)
    {names : List String}
    (hnames : ∀ name ∈ names, (state.registry.crates name).isSome) :
    Rulisp.hooksCalled (state.registry.runDumpHooks answers names) =
      names.filterMap fun name => (state.hook name).map (name, ·) := by
  induction names with
  | nil => rfl
  | cons name rest ih =>
      have hentry := hnames name List.mem_cons_self
      have hrest := ih fun other hother =>
        hnames other (List.mem_cons_of_mem _ hother)
      obtain ⟨crate, hcrate⟩ := Option.isSome_iff_exists.mp hentry
      have hholds := hinv.slots name crate (by simp) hcrate
      have hfirst := hholds.hooksCalled name (answers name)
      unfold Registry.runDumpHooks
      rw [hcrate]
      simp only
      rw [← List.singleton_append, Rulisp.hooksCalled, List.flatMap_append]
      unfold Rulisp.hooksCalled at hfirst hrest
      rw [hfirst, hrest, List.filterMap_cons, DumpState.hook]
      cases (state.current name).bind Generation.hook <;> rfl

/-- As long as loads and restores are regular, dumps are. -/
theorem dump_hooks_in_load_order [LispCase] (registry : Registry)
    (hcrates : ∀ name, registry.crates name = none)
    (horder : registry.crateLoadOrder = [])
    (actions : List DumpAction) (finish : DumpState)
    (hrun : dumpSystem.run (.initial registry) actions = some finish)
    (hregular : dumpSystem.RunMeets (fun state action => action.Regular state)
      (.initial registry) actions) :
    finish.HooksInLoadOrder := by
  have hstep : ∀ state action next, DumpAction.Regular state action →
      state.Invariant [] → dumpSystem.step state action = some next →
        next.Invariant [] :=
    fun _ _ _ hcond hinv hnext => hinv.afterStep hcond hnext
  have hinv := hregular.invariant hstep hrun
    (DumpState.initial_invariant hcrates horder)
  constructor
  case called =>
    intro answers
    rw [Registry.runCrateDumpHooks, hinv.hooksCalled answers hinv.entered]
    conv_rhs => rw [← hinv.inOrder, List.filterMap_filter]
    apply List.filterMap_congr
    intro name _
    by_cases hloaded : name ∈ finish.loaded
    · simp [hloaded]
    · have hnone : finish.current name = none := by
        rw [← Option.not_isSome_iff_eq_none]
        exact fun hsome => hloaded (hinv.currents name hsome)
      simp [DumpState.hook, hnone, hloaded]
  case once =>
    rw [← hinv.inOrder]
    exact hinv.nodup.filter _
  case slots => exact fun name crate => hinv.slots name crate (by simp)

/-! ## Two crates with hooks -/

attribute [local instance] standardCase

/-- A crate whose function `close` is its dump hook. -/
def hookedManifest (crate : String) : Datum :=
  .cons (.keyword "RULISP-MANIFEST") (.ofPlist
    [("SCHEMA", .integer 1), ("ABI", .integer 1),
      ("CRATE", .string crate), ("PREFIX", .string (crate ++ "_rulisp_")),
      ("ON-DUMP", .string "close"),
      ("FUNCTIONS", .ofList
        [.cons (.keyword "FN") (.ofPlist
          [("RUST-NAME", .string "close"), ("LISP-NAME", .string "close"),
            ("SYMBOL", .string "close"), ("PARAMS", .nil),
            ("RESULT", .keyword "UNIT")])])])

/-- `(load-crate path)` of an artifact with these exports. -/
def hookedLoad (crate : String) (exports : List String) : DumpAction :=
  .attempt (.load "target/debug/libhooked.so" (some crate) none)
    { demoHost [] with
      dlopen := .ok
        { exports := exports.map fun short => crate ++ "_rulisp_" ++ short
          abiVersion := 1
          raw := ""
          form := .ok (hookedManifest crate) } }
    none

def hookedExports : List String :=
  ["abi_version", "manifest", "last_error", "dealloc", "close"]

/-- The first artifact of `alpha` lacks its function. -/
def outOfOrderRun : List DumpAction :=
  [hookedLoad "alpha" (hookedExports.erase "close"),
    hookedLoad "beta" hookedExports, hookedLoad "alpha" hookedExports]

def quietAnswers : String → HookAnswer :=
  fun _ => { call := .ok 0, lastError := hostError .other }

/-- `beta` was loaded first, and its hook is called last. -/
theorem dump_hooks_out_of_order :
    ∃ finish, dumpSystem.run (.initial .empty) outOfOrderRun = some finish ∧
      finish.loaded = ["beta", "alpha"] ∧ ¬ finish.HooksInLoadOrder := by
  have hsome : (dumpSystem.run (.initial .empty) outOfOrderRun).isSome =
      true := by
    decide +kernel
  obtain ⟨finish, hfinish⟩ := Option.isSome_iff_exists.mp hsome
  have hloaded : (dumpSystem.run (.initial .empty) outOfOrderRun).map
      DumpState.loaded = some ["beta", "alpha"] := by
    decide +kernel
  have hcalled : (dumpSystem.run (.initial .empty) outOfOrderRun).map
      (fun state => (hooksCalled (state.registry.runCrateDumpHooks
        quietAnswers)).map (·.1)) = some ["alpha", "beta"] := by
    decide +kernel
  have hhooks : (dumpSystem.run (.initial .empty) outOfOrderRun).map
      (fun state => (state.loaded.filterMap fun name =>
        (state.hook name).map (name, ·)).map (·.1)) =
          some ["beta", "alpha"] := by
    decide +kernel
  rw [hfinish] at hloaded hcalled hhooks
  refine ⟨finish, hfinish, Option.some_inj.mp hloaded, fun hinOrder => ?_⟩
  have hsame := congrArg (List.map Prod.fst) (hinOrder.called quietAnswers)
  have horders := (Option.some_inj.mp hcalled).symm.trans
    (hsame.trans (Option.some_inj.mp hhooks))
  exact absurd horders (by decide)

/-- Two loads and a restore in which the artifact of `beta` is gone. -/
def regularRun : List DumpAction :=
  [hookedLoad "beta" hookedExports, hookedLoad "alpha" hookedExports,
    .restore
      [{ name := "beta"
         host := { demoHost [] with probedFile := none }
         refusal := none },
        { name := "alpha"
          host :=
            { demoHost [] with
              dlopen := .ok
                { exports := hookedExports.map fun short =>
                    "alpha_rulisp_" ++ short
                  abiVersion := 1
                  raw := ""
                  form := .ok (hookedManifest "alpha") } }
          refusal := none }]]

theorem dump_hooks_in_load_order_regular :
    ∃ finish, dumpSystem.run (.initial .empty) regularRun = some finish ∧
      finish.loaded = ["beta", "alpha"] ∧ finish.hook "beta" = none ∧
      finish.HooksInLoadOrder := by
  have hsome : (dumpSystem.run (.initial .empty) regularRun).isSome =
      true := by
    decide +kernel
  obtain ⟨finish, hfinish⟩ := Option.isSome_iff_exists.mp hsome
  have hloaded : (dumpSystem.run (.initial .empty) regularRun).map
      (fun state => (state.loaded, state.hook "beta")) =
        some (["beta", "alpha"], none) := by
    decide +kernel
  rw [hfinish, Option.map_some, Option.some_inj, Prod.mk.injEq] at hloaded
  have hregular : dumpSystem.RunMeets (fun state action =>
      action.Regular state) (.initial .empty) regularRun := by
    decide +kernel
  exact ⟨finish, hfinish, hloaded.1, hloaded.2,
    dump_hooks_in_load_order .empty (fun _ => rfl) rfl regularRun finish
      hfinish hregular⟩

end Rulisp
