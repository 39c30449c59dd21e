import Rulisp.Loader

/-!
# What a loader step does

The inversion of the loader's step function, and of the preparation of a
generation.  Every invariant of the loader is derived from these two.
-/

namespace Rulisp

variable [LispCase]

/-! ## Prepared generations -/

/-- The wrapper has a handle position of type `token`, checked or filled with
the class `cls`. -/
def CrateWrapper.MentionsHandle (w : CrateWrapper) (token : Datum)
    (cls : Symbol) : Prop :=
  (∃ name, (name, .handle token cls) ∈ w.form.params) ∨
    w.form.result = .handle token cls

/-- `cls` is the class of the handle type that `token` designates. -/
def Generation.HandleClass (generation : Generation) (token : Datum)
    (cls : Symbol) : Prop :=
  ∃ h ∈ generation.manifest.handles,
    token.stringDesignator = some h.rustName ∧
      cls.name = stringUpcase h.lispName

/-- The free shim that the generation records for a Rust type. -/
def Generation.FreeShim (generation : Generation) (rustType : String)
    (freePtr : ForeignPtr) : Prop :=
  ∃ h ∈ generation.manifest.handles, h.rustName = rustType ∧
    freePtr = { library := generation.library
                symbol := generation.manifest.pfx ++ h.free }

/-- Everything a wrapper closes over comes from one generation. -/
structure CrateWrapper.BornOf (w : CrateWrapper) (generation : Generation) :
    Prop where
  crate : w.crate = generation.crate
  number : w.ctx.generation = generation.number
  session : w.ctx.session = generation.library.session
  fnPtr : w.fnPtr.library = generation.library
  lastErrorPtr : w.ctx.lastErrorPtr.library = generation.library
  deallocPtr : w.ctx.deallocPtr =
    { library := generation.library
      symbol := generation.manifest.pfx ++ "dealloc" }
  entry : ∃ f ∈ generation.manifest.functions,
    w.fnPtr.symbol = generation.manifest.pfx ++ f.symbol ∧
      ∃ classOf qualified, wrapperForm classOf f qualified = .ok w.form
  frees : ∀ rustType freePtr, (rustType, freePtr) ∈ w.ctx.freeTable →
    generation.FreeShim rustType freePtr
  handles : ∀ token cls, w.MentionsHandle token cls →
    generation.HandleClass token cls

/-- What preparation guarantees of the generation it returns. -/
structure Prepared.Sound (prepared : Prepared) (registry : Registry)
    (generation : Generation) : Prop where
  number : prepared.ctx.generation = generation.number
  lastErrorPtr : prepared.ctx.lastErrorPtr.library = generation.library
  onDumpPtr : ∀ ptr, prepared.onDumpPtr = some ptr →
    ptr.library = generation.library
  wrappers : ∀ sym doc w, (sym, doc, w) ∈ prepared.fns →
    w.BornOf generation
  classes : ∀ sym doc w, (sym, doc, w) ∈ prepared.fns →
    ∀ token cls, w.MentionsHandle token cls →
      cls ∈ prepared.classes.map (·.1)
  owners : ∀ cls ∈ prepared.classes.map (·.1),
    registry.classOwner cls = none ∨
      registry.classOwner cls = some generation.crate

omit [LispCase] in
theorem LibraryImage.resolve_eq_ok {image : LibraryImage} {library : Library}
    {pfx crateName short : String} {ptr : ForeignPtr}
    (hresolve : image.resolve library pfx crateName short = .ok ptr) :
    ptr = { library := library, symbol := pfx ++ short } := by
  unfold LibraryImage.resolve at hresolve
  split at hresolve
  · cases hresolve
    rfl
  · cases hresolve

omit [LispCase] in
theorem LoadHost.intern_eq_ok {host : LoadHost} {package name : String}
    {sym : Symbol} (hintern : host.intern package name = .ok sym) :
    sym.name = name := by
  obtain ⟨home, -, hsym⟩ := LispResult.bind_eq_ok.mp hintern
  cases hsym
  rfl

omit [LispCase] in
/-- Only a handle type makes a handle position, and its class is the one that
the token resolves to. -/
theorem paramForm_handle {classOf : Datum → LispResult Symbol} {ty : Datum}
    {token : Datum} {cls : Symbol}
    (hform : paramForm classOf ty = .ok (.handle token cls)) :
    classOf token = .ok cls := by
  unfold paramForm at hform
  split_ifs at hform with _ _ hoption hvec hhandle hcallback hstored
  · cases hform
  · cases hform
  · obtain ⟨inner, -, hform⟩ := LispResult.bind_eq_ok.mp hform
    split_ifs at hform
    · cases hform
    · cases hform
    · obtain ⟨cffi, -, hform⟩ := LispResult.bind_eq_ok.mp hform
      cases hform
  · obtain ⟨tok, -, hform⟩ := LispResult.bind_eq_ok.mp hform
    obtain ⟨elt, -, hform⟩ := LispResult.bind_eq_ok.mp hform
    cases hform
  · obtain ⟨rustName, -, hform⟩ := LispResult.bind_eq_ok.mp hform
    obtain ⟨cls', hcls, hform⟩ := LispResult.bind_eq_ok.mp hform
    cases hform
    exact hcls
  · obtain ⟨trampoline, -, hform⟩ := LispResult.bind_eq_ok.mp hform
    cases hform
  · obtain ⟨trampoline, -, hform⟩ := LispResult.bind_eq_ok.mp hform
    cases hform
  · obtain ⟨cffi, -, hform⟩ := LispResult.bind_eq_ok.mp hform
    cases hform

omit [LispCase] in
theorem resultForm_handle {classOf : Datum → LispResult Symbol}
    {result : Datum} {token : Datum} {cls : Symbol}
    (hform : resultForm classOf result = .ok (.handle token cls)) :
    classOf token = .ok cls := by
  unfold resultForm at hform
  split_ifs at hform with _ _ _ hhandle _ hoption hvec
  · cases hform
  · cases hform
  · cases hform
  · obtain ⟨rustName, -, hform⟩ := LispResult.bind_eq_ok.mp hform
    obtain ⟨cls', hcls, hform⟩ := LispResult.bind_eq_ok.mp hform
    cases hform
    exact hcls
  · cases hform
  · obtain ⟨inner, -, hform⟩ := LispResult.bind_eq_ok.mp hform
    split_ifs at hform
    · cases hform
    · cases hform
    · obtain ⟨cffi, -, hform⟩ := LispResult.bind_eq_ok.mp hform
      cases hform
  · obtain ⟨tok, -, hform⟩ := LispResult.bind_eq_ok.mp hform
    obtain ⟨elt, -, hform⟩ := LispResult.bind_eq_ok.mp hform
    cases hform
  · obtain ⟨cffi, -, hform⟩ := LispResult.bind_eq_ok.mp hform
    cases hform

/-- Every handle position of a wrapper form has a class that the manifest
gives it. -/
theorem wrapperForm_handle {classOf : Datum → LispResult Symbol}
    {fspec : FnSpec} {qualified : String} {form : WrapperForm}
    {token : Datum} {cls : Symbol}
    (hwrapper : wrapperForm classOf fspec qualified = .ok form)
    (hmentions : (∃ name, (name, .handle token cls) ∈ form.params) ∨
      form.result = .handle token cls) :
    classOf token = .ok cls := by
  obtain ⟨params, hparams, hwrapper⟩ := LispResult.bind_eq_ok.mp hwrapper
  obtain ⟨-, -, hwrapper⟩ := LispResult.bind_eq_ok.mp hwrapper
  obtain ⟨result, hresult, hwrapper⟩ := LispResult.bind_eq_ok.mp hwrapper
  cases hwrapper
  rcases hmentions with ⟨name, hmem⟩ | hform
  · obtain ⟨p, -, hp⟩ := collect_mem hparams hmem
    obtain ⟨form, hform, hp⟩ := LispResult.bind_eq_ok.mp hp
    cases hp
    exact paramForm_handle hform
  · simp only at hform
    exact resultForm_handle (hform ▸ hresult)

/-! ## Preparation -/

theorem prepareFn_eq_ok {host : LoadHost} {crate : Crate} {manifest : Manifest}
    {ctx : GenCtx} {resolve : String → LispResult ForeignPtr} {f : FnSpec}
    {entry : Symbol × Message × CrateWrapper}
    (hprepare : prepareFn host crate manifest ctx resolve f = .ok entry) :
    entry.2.2.crate = crate.name ∧ entry.2.2.ctx = ctx ∧
      resolve f.symbol = .ok entry.2.2.fnPtr ∧
      (∃ classOf qualified,
        wrapperForm classOf f qualified = .ok entry.2.2.form) ∧
      ∀ token cls, entry.2.2.MentionsHandle token cls →
        classNameFor manifest.handles (host.intern crate.package) token =
          .ok cls := by
  obtain ⟨sym, -, hprepare⟩ := LispResult.bind_eq_ok.mp hprepare
  obtain ⟨fnPtr, hfnPtr, hprepare⟩ := LispResult.bind_eq_ok.mp hprepare
  obtain ⟨form, hform, hprepare⟩ := LispResult.bind_eq_ok.mp hprepare
  obtain ⟨doc, -, hprepare⟩ := LispResult.bind_eq_ok.mp hprepare
  obtain ⟨-, -, hprepare⟩ := LispResult.bind_eq_ok.mp hprepare
  cases hprepare
  exact ⟨rfl, rfl, hfnPtr, ⟨_, _, hform⟩, fun token cls hmentions =>
    wrapperForm_handle hform hmentions⟩

theorem prepareClass_eq_ok {host : LoadHost} {registry : Registry}
    {crate : Crate} {h : HandleSpec} {entry : Symbol × Message}
    (hprepare : prepareClass host registry crate h = .ok entry) :
    host.intern crate.package (stringUpcase h.lispName) = .ok entry.1 ∧
      (registry.classOwner entry.1 = none ∨
        registry.classOwner entry.1 = some crate.name) := by
  obtain ⟨classSym, hintern, hprepare⟩ := LispResult.bind_eq_ok.mp hprepare
  obtain ⟨_, howner, hprepare⟩ := LispResult.bind_eq_ok.mp hprepare
  cases hprepare
  refine ⟨hintern, ?_⟩
  rw [errorUnless_eq_ok] at howner
  cases hclass : registry.classOwner classSym with
  | none => exact .inl rfl
  | some owner =>
      rw [hclass] at howner
      exact .inr (congrArg some howner)

omit [LispCase] in
theorem prepareFree_eq_ok {resolve : String → LispResult ForeignPtr}
    {h : HandleSpec} {entry : String × ForeignPtr}
    (hprepare : prepareFree resolve h = .ok entry) :
    entry.1 = h.rustName ∧ resolve h.free = .ok entry.2 := by
  obtain ⟨ptr, hptr, hprepare⟩ := LispResult.bind_eq_ok.mp hprepare
  cases hprepare
  exact ⟨rfl, hptr⟩

omit [LispCase] in
theorem prepareOnDump_eq_ok {resolve : String → LispResult ForeignPtr}
    {onDump : Option String} {ptr : ForeignPtr}
    (hprepare : prepareOnDump resolve onDump = .ok (some ptr)) :
    ∃ sym, resolve sym = .ok ptr := by
  cases onDump with
  | none => cases hprepare
  | some sym =>
      obtain ⟨found, hfound, hprepare⟩ := LispResult.bind_eq_ok.mp hprepare
      cases hprepare
      exact ⟨sym, hfound⟩

theorem prepareGeneration_sound {host : LoadHost} {library : Library}
    {registry : Registry} {crate : Crate} {image : LibraryImage}
    {manifest : Manifest} {prepared : Prepared}
    (hprepare : prepareGeneration host library registry crate image manifest =
      .ok prepared) :
    prepared.Sound registry
      { crate := crate.name, number := crate.generation + 1, library,
        manifest } := by
  obtain ⟨lastErrorPtr, hlast, hprepare⟩ := LispResult.bind_eq_ok.mp hprepare
  obtain ⟨deallocPtr, hdealloc, hprepare⟩ := LispResult.bind_eq_ok.mp hprepare
  obtain ⟨onDumpPtr, honDump, hprepare⟩ := LispResult.bind_eq_ok.mp hprepare
  obtain ⟨freeTable, hfrees, hprepare⟩ := LispResult.bind_eq_ok.mp hprepare
  obtain ⟨conditions, -, hprepare⟩ := LispResult.bind_eq_ok.mp hprepare
  obtain ⟨classes, hclasses, hprepare⟩ := LispResult.bind_eq_ok.mp hprepare
  obtain ⟨fns, hfns, hprepare⟩ := LispResult.bind_eq_ok.mp hprepare
  cases hprepare
  have hlastLibrary := LibraryImage.resolve_eq_ok hlast
  have hdeallocLibrary := LibraryImage.resolve_eq_ok hdealloc
  have hclassMem : ∀ token cls,
      classNameFor manifest.handles (host.intern crate.package) token =
        .ok cls →
      cls ∈ classes.map (·.1) := by
    intro token cls hclass
    obtain ⟨h, hmem, -, hintern⟩ := classNameFor_eq_ok hclass
    obtain ⟨entry, hentry, hprepared⟩ := collect_mem_of_mem hclasses hmem
    have hsame := hintern.symm.trans (prepareClass_eq_ok hprepared).1
    cases hsame
    exact List.mem_map_of_mem hentry
  constructor
  · rfl
  · exact congrArg ForeignPtr.library hlastLibrary
  · intro ptr hptr
    simp only at hptr
    subst hptr
    obtain ⟨sym, hsym⟩ := prepareOnDump_eq_ok honDump
    exact congrArg ForeignPtr.library (LibraryImage.resolve_eq_ok hsym)
  · intro sym doc w hmem
    obtain ⟨f, hf, hprepared⟩ := collect_mem hfns hmem
    obtain ⟨hcrate, hctx, hfnPtr, hform, hmentions⟩ :=
      prepareFn_eq_ok hprepared
    have hfnLibrary := LibraryImage.resolve_eq_ok hfnPtr
    simp only at hcrate hctx hfnLibrary hform hmentions
    constructor
    · exact hcrate
    · rw [hctx]
    · rw [hctx]
    · rw [hfnLibrary]
    · rw [hctx]
      exact congrArg ForeignPtr.library hlastLibrary
    · rw [hctx]
      exact hdeallocLibrary
    · exact ⟨f, hf, by rw [hfnLibrary], hform⟩
    · intro rustType freePtr hfree
      rw [hctx] at hfree
      obtain ⟨h, hmem, hprepared⟩ := collect_mem hfrees hfree
      obtain ⟨hname, hresolve⟩ := prepareFree_eq_ok hprepared
      exact ⟨h, hmem, hname.symm, LibraryImage.resolve_eq_ok hresolve⟩
    · intro token cls hmention
      obtain ⟨h, hmem, htoken, hintern⟩ :=
        classNameFor_eq_ok (hmentions token cls hmention)
      exact ⟨h, hmem, htoken, LoadHost.intern_eq_ok hintern⟩
  · intro sym doc w hmem token cls hmention
    obtain ⟨f, -, hprepared⟩ := collect_mem hfns hmem
    exact hclassMem token cls
      ((prepareFn_eq_ok hprepared).2.2.2.2 token cls hmention)
  · intro cls hmem
    obtain ⟨entry, hentry, rfl⟩ := List.mem_map.mp hmem
    obtain ⟨h, -, hprepared⟩ := collect_mem hclasses hentry
    exact (prepareClass_eq_ok hprepared).2

/-! ## The beginning of a load -/

omit [LispCase] in
/-- An admitted manifest is the one in the library that was opened. -/
theorem openAndVerify_manifest {host : LoadHost}
    {displayName pfx origin : String} {image : LibraryImage}
    {manifest : Manifest}
    (hopen : openAndVerify host displayName pfx origin =
      .ok (image, manifest)) :
    host.dlopen = .ok image ∧
      (image.form >>= parseManifest) = .ok manifest := by
  obtain ⟨opened, hdlopen, hopen⟩ := LispResult.bind_eq_ok.mp hopen
  obtain ⟨-, -, hopen⟩ := LispResult.bind_eq_ok.mp hopen
  obtain ⟨-, -, hopen⟩ := LispResult.bind_eq_ok.mp hopen
  obtain ⟨-, -, hopen⟩ := LispResult.bind_eq_ok.mp hopen
  obtain ⟨form, hform, hopen⟩ := LispResult.bind_eq_ok.mp hopen
  obtain ⟨parsed, hparsed, hopen⟩ := LispResult.bind_eq_ok.mp hopen
  obtain ⟨-, -, hopen⟩ := LispResult.bind_eq_ok.mp hopen
  obtain ⟨-, -, hopen⟩ := LispResult.bind_eq_ok.mp hopen
  cases hopen
  refine ⟨?_, LispResult.bind_eq_ok.mpr ⟨form, hform, hparsed⟩⟩
  cases hhost : host.dlopen with
  | error message => simp [hhost, Except.mapError] at hdlopen
  | ok found =>
      simp only [hhost, Except.mapError, Except.ok.injEq] at hdlopen
      rw [hdlopen]

omit [LispCase] in
theorem admitLoad_manifest {host : LoadHost} {args : LoadArgs}
    {opened : Opened} (hadmitted : admitLoad host args = .ok opened) :
    host.dlopen = .ok opened.image ∧
      (opened.image.form >>= parseManifest) = .ok opened.manifest := by
  obtain ⟨copied, -, hadmitted⟩ := LispResult.bind_eq_ok.mp hadmitted
  obtain ⟨⟨image, manifest⟩, hopen, hadmitted⟩ := LispResult.bind_eq_ok.mp hadmitted
  obtain ⟨-, -, hadmitted⟩ := LispResult.bind_eq_ok.mp hadmitted
  cases hadmitted
  exact openAndVerify_manifest hopen

/-- The registry after a load that did not commit: at most a new entry. -/
def Registry.AfterRefusal (registry next : Registry) : Prop :=
  next = registry ∨ ∃ name package, next = registry.register name package

/-- The registry and the commit of a load whose slots are set. -/
inductive Registry.Committed (registry : Registry) (host : LoadHost)
    (library : Library) (args : LoadArgs) : Registry → Commit → Prop
  | committed (opened : Opened) (prepared : Prepared)
      (hadmitted : admitLoad host args = .ok opened)
      (hprepare : prepareGeneration host library
        (registry.register opened.manifest.crate args.package)
        (registry.crateFor opened.manifest.crate args.package)
        opened.image opened.manifest = .ok prepared) :
      Committed registry host library args
        ((registry.register opened.manifest.crate args.package).setCrate
          opened.manifest.crate
          ((registry.crateFor opened.manifest.crate args.package).commitSlots
            host library opened prepared))
        { generation :=
            { crate := opened.manifest.crate
              number := prepared.ctx.generation
              library := library
              manifest := opened.manifest }
          package :=
            (registry.crateFor opened.manifest.crate args.package).package
          ops := publication prepared
            (registry.crateFor opened.manifest.crate args.package).symbols }

theorem Registry.beginLoad_eq_error {registry next : Registry}
    {host : LoadHost} {library : Library} {args : LoadArgs}
    {e : LoadCondition}
    (hbegin : registry.beginLoad host library args = (next, .error e)) :
    registry.AfterRefusal next := by
  unfold beginLoad at hbegin
  split at hbegin
  · cases hbegin
    exact .inl rfl
  · rename_i opened hopened
    simp only at hbegin
    split at hbegin
    · cases hbegin
      exact .inr ⟨_, _, rfl⟩
    · cases hbegin

theorem Registry.beginLoad_eq_ok {registry next : Registry}
    {host : LoadHost} {library : Library} {args : LoadArgs} {commit : Commit}
    (hbegin : registry.beginLoad host library args = (next, .ok commit)) :
    registry.Committed host library args next commit := by
  unfold beginLoad at hbegin
  split at hbegin
  · cases hbegin
  · rename_i opened hopened
    simp only at hbegin
    split at hbegin
    · cases hbegin
    · rename_i prepared hprepared
      cases hbegin
      exact .committed opened prepared hopened hprepared

theorem Registry.Committed.beginLoad_eq {registry next : Registry}
    {host : LoadHost} {library : Library} {args : LoadArgs} {commit : Commit}
    (hcommitted : registry.Committed host library args next commit) :
    registry.beginLoad host library args = (next, .ok commit) := by
  cases hcommitted with
  | committed opened prepared hadmitted hprepare =>
      simp only [beginLoad, hadmitted, hprepare]

/-! ## Steps -/

namespace LoaderState

/-- Who takes the lock for a load: a caller of `load-crate` or
`reload-crate`, or the restore that has come to an entry. -/
inductive Begins (state : LoaderState) (host : LoadHost) :
    LoaderAction → LoadArgs → Option (String × List String) → Prop
  | call (call : LoadCall) (args : LoadArgs)
      (hlock : state.lock = .unlocked) :
      Begins state host (.load call host) args none
  | entry (name : String) (remaining : List String) (crate : Crate)
      (hlock : state.lock = .restoring (name :: remaining))
      (hcrate : state.registry.crates name = some crate) :
      Begins state host (.restoreCrate name host) (restoreArgs name crate)
        (some (name, remaining))

/-- What a step of the loader can do. -/
inductive Outcome (state : LoaderState) :
    LoaderAction → LoaderState → Prop
  /-- `resolve-crate` signals. -/
  | unresolved (call : LoadCall) (host : LoadHost) :
      Outcome state (.load call host) state
  | refused (call : LoadCall) (host : LoadHost) (counter : ℕ)
      (registry : Registry)
      (hlock : state.lock = .unlocked)
      (hregistry : state.registry.AfterRefusal registry) :
      Outcome state (.load call host)
        { state with copyCounter := counter, registry := registry }
  | entryRefused (name : String) (remaining : List String) (host : LoadHost)
      (counter : ℕ) (registry : Registry) (e : LoadCondition)
      (hlock : state.lock = .restoring (name :: remaining))
      (hregistry : state.registry.AfterRefusal registry) :
      Outcome state (.restoreCrate name host)
        { state with
          copyCounter := counter
          registry := registry.stubCrate name e
          lock := .restoring remaining }
  | begun (action : LoaderAction) (host : LoadHost) (args : LoadArgs)
      (restore : Option (String × List String)) (counter : ℕ)
      (registry : Registry) (commit : Commit)
      (hbegins : state.Begins host action args restore)
      (hcommitted : state.registry.Committed host state.nextLibrary args
        registry commit) :
      Outcome state action
        { state with
          copyCounter := counter
          registry := registry
          lock := .loading
            { generation := commit.generation
              package := commit.package
              ops := commit.ops
              sweepRefusal := host.sweepRefusal
              restore := restore }
          generations := state.generations ++ [commit.generation] }
  | published (loading : Loading) (op : PublishOp) (rest : List PublishOp)
      (hlock : state.lock = .loading loading)
      (hops : loading.ops = op :: rest) :
      Outcome state (.publish none)
        { state with
          registry := state.registry.publish loading.generation.crate
            loading.package op
          lock := .loading { loading with ops := rest }
          published := state.published ++ op.published }
  /-- A load is over, with or without a condition. -/
  | ended (action : LoaderAction) (loading : Loading)
      (hlock : state.lock = .loading loading)
      (hrestore : loading.restore = none) :
      Outcome state action { state with lock := .unlocked }
  | entryEnded (action : LoaderAction) (loading : Loading) (name : String)
      (remaining : List String)
      (hlock : state.lock = .loading loading)
      (hrestore : loading.restore = some (name, remaining))
      (hops : loading.ops = []) :
      Outcome state action { state with lock := .restoring remaining }
  | entryFailed (action : LoaderAction) (loading : Loading) (name : String)
      (remaining : List String) (e : LoadCondition)
      (hlock : state.lock = .loading loading)
      (hrestore : loading.restore = some (name, remaining)) :
      Outcome state action
        { state with
          registry := state.registry.stubCrate name e
          lock := .restoring remaining }
  | imageStarted (order : List String)
      (hlock : state.lock = .unlocked)
      (horder : order.Perm state.registry.crateLoadOrder) :
      Outcome state (.restore order)
        { state with session := state.session + 1, lock := .restoring order }
  | restored (hlock : state.lock = .restoring []) :
      Outcome state .restored { state with lock := .unlocked }

theorem beginLoad_cases (state : LoaderState) (host : LoadHost)
    (args : LoadArgs) (restore : Option (String × List String)) :
    (∃ registry e, state.registry.AfterRefusal registry ∧
      state.beginLoad host args restore =
        ({ state with copyCounter := state.copyCounter + 1
                      registry := registry }, some e)) ∨
    (∃ registry commit,
      state.registry.Committed host state.nextLibrary args registry commit ∧
      state.beginLoad host args restore =
        ({ state with
            copyCounter := state.copyCounter + 1
            registry := registry
            lock := .loading
              { generation := commit.generation
                package := commit.package
                ops := commit.ops
                sweepRefusal := host.sweepRefusal
                restore := restore }
            generations := state.generations ++ [commit.generation] },
          none)) := by
  unfold beginLoad
  rcases hbegin : state.registry.beginLoad host state.nextLibrary args
    with ⟨registry, result⟩
  cases result with
  | error e =>
      left
      exact ⟨registry, e, Registry.beginLoad_eq_error hbegin, by simp⟩
  | ok commit =>
      right
      exact ⟨registry, commit, Registry.beginLoad_eq_ok hbegin, by simp⟩

theorem endLoad_outcome {state : LoaderState} {action : LoaderAction}
    {loading : Loading} (hlock : state.lock = .loading loading)
    (failure : Option LoadCondition)
    (hops : failure = none → loading.ops = []) :
    state.Outcome action (state.endLoad loading.restore failure) := by
  unfold endLoad
  cases hrestore : loading.restore with
  | none => exact .ended action loading hlock hrestore
  | some entry =>
      obtain ⟨name, remaining⟩ := entry
      cases failure with
      | none =>
          exact .entryEnded action loading name remaining hlock hrestore
            (hops rfl)
      | some e =>
          exact .entryFailed action loading name remaining e hlock hrestore

theorem step_outcome {state next : LoaderState} {action : LoaderAction}
    (hstep : state.step action = some next) : state.Outcome action next := by
  cases action with
  | load call host =>
      simp only [step] at hstep
      split at hstep
      · rename_i hlock
        split at hstep
        · cases hstep
          exact .unresolved call host
        · rename_i args hargs
          rcases state.beginLoad_cases host args none with
            ⟨registry, e, hregistry, hbegin⟩ |
              ⟨registry, commit, hcommitted, hbegin⟩
          · rw [hbegin] at hstep
            cases hstep
            exact .refused call host _ registry hlock hregistry
          · rw [hbegin] at hstep
            cases hstep
            exact .begun _ host args none _ registry commit
              (.call call args hlock) hcommitted
      · cases hstep
  | publish refusal =>
      simp only [step] at hstep
      split at hstep
      · rename_i loading hlock
        split at hstep
        · cases hstep
        · rename_i op rest hops
          cases hstep
          exact .published loading op rest hlock hops
        · rename_i op rest kind hops
          split at hstep
          · cases hstep
          · cases hstep
            exact endLoad_outcome hlock _ (by simp)
      · cases hstep
  | sweep =>
      simp only [step] at hstep
      split at hstep
      · rename_i loading hlock
        split at hstep
        · rename_i hops
          cases hstep
          exact endLoad_outcome hlock _ (fun _ => hops)
        · cases hstep
      · cases hstep
  | restore order =>
      simp only [step] at hstep
      split at hstep
      · rename_i hlock
        split at hstep
        · rename_i horder
          cases hstep
          exact .imageStarted order hlock horder
        · cases hstep
      · cases hstep
  | restoreCrate name host =>
      simp only [step] at hstep
      split at hstep
      · rename_i entry remaining hlock
        split at hstep
        · rename_i crate hcrate
          split at hstep
          · rename_i hname
            subst hname
            rcases state.beginLoad_cases host (restoreArgs name crate)
              (some (name, remaining)) with
                ⟨registry, e, hregistry, hbegin⟩ |
                  ⟨registry, commit, hcommitted, hbegin⟩
            · rw [hbegin] at hstep
              cases hstep
              exact .entryRefused name remaining host _ registry e hlock
                hregistry
            · rw [hbegin] at hstep
              cases hstep
              exact .begun _ host _ _ _ registry commit
                (.entry name remaining crate hlock hcrate) hcommitted
          · cases hstep
        · cases hstep
      · cases hstep
  | restored =>
      simp only [step] at hstep
      split at hstep
      · rename_i hlock
        cases hstep
        exact .restored hlock
      · cases hstep

end LoaderState

end Rulisp
