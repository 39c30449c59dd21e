import Rulisp.PublishedLoad

/-!
# Crates in one package

Any number of crates may be loaded into one package.  Handle classes have an
owner that preparation checks; functions and conditions have none, so one
crate's names stay its own only as long as no other crate's manifest uses
them.  The states here are those between successful loads.
-/

namespace Rulisp

open TransitionSystem

section Case

variable [LispCase]

/-! ## Names of a manifest -/

def Datum.elements : Datum → List Datum
  | .cons first rest => first :: rest.elements
  | _ => []

/-- What `intern` makes of the Lisp names of the functions. -/
def Manifest.functionSymbols (manifest : Manifest)
    (intern : String → LispResult Symbol) : List Symbol :=
  manifest.functions.filterMap fun f =>
    (intern (stringUpcase f.lispName)).toOption

def Manifest.handleSymbols (manifest : Manifest)
    (intern : String → LispResult Symbol) : List Symbol :=
  manifest.handles.filterMap fun h =>
    (intern (stringUpcase h.lispName)).toOption

def Manifest.conditionSymbols (manifest : Manifest)
    (intern : String → LispResult Symbol) : List Symbol :=
  manifest.errors.elements.filterMap fun
    | .string e => (intern (camelToKebab e)).toOption
    | _ => none

/-! ## Sequences of successful loads -/

/-- The registry, and what `intern` answered the last load of each crate in
the crate's package. -/
structure PackageState where
  registry : Registry
  interned : String → String → LispResult Symbol

/-- A call of `load-crate` or `reload-crate` with the host's answers. -/
structure LoadStep where
  call : LoadCall
  host : LoadHost
  refusal : PublicationRefusal
  library : Library

namespace PackageState

def manifestOf (state : PackageState) (name : String) : Option Manifest :=
  (state.registry.crates name).bind Crate.manifest

def functionSymbols (state : PackageState) (name : String) : List Symbol :=
  match state.manifestOf name with
  | none => []
  | some manifest => manifest.functionSymbols (state.interned name)

def handleSymbols (state : PackageState) (name : String) : List Symbol :=
  match state.manifestOf name with
  | none => []
  | some manifest => manifest.handleSymbols (state.interned name)

def conditionSymbols (state : PackageState) (name : String) : List Symbol :=
  match state.manifestOf name with
  | none => []
  | some manifest => manifest.conditionSymbols (state.interned name)

/-- The package of a registered crate. -/
def packageOf (registry : Registry) (name : String) : String :=
  ((registry.crates name).map Crate.package).getD ""

/-- A call that returns a crate; one that signals is no step here. -/
def load (state : PackageState) (action : LoadStep) : Option PackageState :=
  match action.call.run state.registry action.host action.refusal
    action.library with
  | (_, .error _) => none
  | (registry, .ok name) =>
      some
        { registry
          interned := Function.update state.interned name
            (action.host.intern (packageOf registry name)) }

end PackageState

def sharedPackage : System PackageState LoadStep where
  step := PackageState.load

/-! ## The frame -/

/-- `w` is the function that the current generation of `crate` has for `f`. -/
structure CrateWrapper.Wraps (w : CrateWrapper) (crate : Crate)
    (manifest : Manifest) (f : FnSpec) : Prop where
  crateName : w.crate = crate.name
  number : w.ctx.generation = crate.generation
  loaded : crate.libHandle = some w.fnPtr.library
  entryPoint : w.fnPtr.symbol = manifest.pfx ++ f.symbol
  form : ∃ classOf qualified, wrapperForm classOf f qualified = .ok w.form

/-- Every function name of every loaded crate's current manifest is bound to
the crate's current wrapper for it. -/
def PackageState.FunctionsBound (state : PackageState) : Prop :=
  ∀ name crate, state.registry.crates name = some crate →
    ∃ manifest, crate.manifest = some manifest ∧
      ∀ f ∈ manifest.functions, ∃ sym w,
        state.interned name (stringUpcase f.lispName) = .ok sym ∧
          state.registry.functions sym = some (.wrapper w) ∧
          w.Wraps crate manifest f

/-- A load of `name` changes nothing that belongs to another crate. -/
structure PackageState.Framed (state next : PackageState) (name : String) :
    Prop where
  crates : ∀ other, other ≠ name →
    next.registry.crates other = state.registry.crates other
  functions : ∀ other, other ≠ name → ∀ sym ∈ state.functionSymbols other,
    next.registry.functions sym = state.registry.functions sym
  handleClasses : ∀ other, other ≠ name → ∀ sym ∈ state.handleSymbols other,
    next.registry.classes sym = state.registry.classes sym
  conditionClasses : ∀ other, other ≠ name →
    ∀ sym ∈ state.conditionSymbols other,
      next.registry.classes sym = state.registry.classes sym

/-- The manifest's function names are different symbols, and it uses no
function, handle or condition name of another crate for its own functions,
conditions or handles. -/
structure PackageState.KeepsApart (state : PackageState) (manifest : Manifest)
    (intern : String → LispResult Symbol) : Prop where
  distinct : (manifest.functionSymbols intern).Nodup
  functions : ∀ other, other ≠ manifest.crate →
    (state.functionSymbols other).Disjoint (manifest.functionSymbols intern)
  conditions : ∀ other, other ≠ manifest.crate →
    (state.handleSymbols other).Disjoint (manifest.conditionSymbols intern)
  handles : ∀ other, other ≠ manifest.crate →
    (state.conditionSymbols other).Disjoint (manifest.handleSymbols intern)

/-- The manifest that the call opens, if it comes to that, keeps apart. -/
def LoadStep.KeepsApart (state : PackageState) (action : LoadStep) : Prop :=
  match action.call.args state.registry with
  | .error _ => True
  | .ok args =>
      match admitLoad action.host args with
      | .error _ => True
      | .ok opened =>
          state.KeepsApart opened.manifest
            (action.host.intern
              (state.registry.crateFor opened.manifest.crate
                args.package).package)

/-- What a successful call is meant to establish and to leave alone. -/
def LoadStep.MeetsFrame (state : PackageState) (action : LoadStep) : Prop :=
  ∀ next, sharedPackage.step state action = some next →
    next.FunctionsBound ∧
      ∃ name,
        (action.call.run state.registry action.host action.refusal
          action.library).2 = .ok name ∧
        state.Framed next name

/-! ## What a load prepares -/

omit [LispCase] in
/-- The symbols of collected values, read off the elements. -/
theorem filterMap_toOption_eq_map {α β : Type} {f : α → LispResult β}
    {name : α → LispResult Symbol} {key : β → Symbol} {xs : List α}
    {ys : List β} (hcollect : List.Forall₂ (fun x y => f x = .ok y) xs ys)
    (hname : ∀ x y, f x = .ok y → name x = .ok (key y)) :
    xs.filterMap (fun x => (name x).toOption) = ys.map key := by
  induction hcollect with
  | nil => rfl
  | cons hfirst _ ih =>
      have hkey := hname _ _ hfirst
      rw [List.filterMap_cons, hkey, List.map_cons, ← ih]
      rfl

theorem prepareFn_intern {host : LoadHost} {crate : Crate}
    {manifest : Manifest} {ctx : GenCtx}
    {resolve : String → LispResult ForeignPtr} {f : FnSpec}
    {entry : Symbol × Message × CrateWrapper}
    (hprepare : prepareFn host crate manifest ctx resolve f = .ok entry) :
    host.intern crate.package (stringUpcase f.lispName) = .ok entry.1 ∧
      ∃ classOf qualified,
        wrapperForm classOf f qualified = .ok entry.2.2.form := by
  have hform := (prepareFn_eq_ok hprepare).2.2.2.1
  refine ⟨?_, hform⟩
  obtain ⟨sym, hsym, hprepare⟩ := LispResult.bind_eq_ok.mp hprepare
  obtain ⟨fnPtr, -, hprepare⟩ := LispResult.bind_eq_ok.mp hprepare
  obtain ⟨form, -, hprepare⟩ := LispResult.bind_eq_ok.mp hprepare
  obtain ⟨doc, -, hprepare⟩ := LispResult.bind_eq_ok.mp hprepare
  obtain ⟨-, -, hprepare⟩ := LispResult.bind_eq_ok.mp hprepare
  cases hprepare
  exact hsym

/-- The entries of the error conditions are those of the declared names. -/
theorem mapcar_conditions {host : LoadHost} {crate : Crate} {errors : Datum}
    {entries : List (String × Symbol)}
    (hmapcar : errors.mapcar (prepareErrorCondition host crate) =
      .ok entries) :
    (errors.elements.filterMap fun
      | .string e => (host.intern crate.package (camelToKebab e)).toOption
      | _ => none) = entries.map (·.2) := by
  induction errors generalizing entries with
  | nil =>
      cases hmapcar
      rfl
  | cons first rest _ ih =>
      obtain ⟨entry, hentry, hmapcar⟩ := LispResult.bind_eq_ok.mp hmapcar
      obtain ⟨others, hothers, hmapcar⟩ := LispResult.bind_eq_ok.mp hmapcar
      cases hmapcar
      have hrest := ih hothers
      cases first with
      | string e =>
          obtain ⟨sym, hsym, hentry⟩ := LispResult.bind_eq_ok.mp hentry
          cases hentry
          simp only [Datum.elements, List.filterMap_cons, hsym, hrest]
          rfl
      | _ => cases hentry
  | _ => cases hmapcar

/-- The names a load publishes are those of its manifest. -/
structure Prepared.Names (prepared : Prepared) (manifest : Manifest)
    (intern : String → LispResult Symbol) : Prop where
  functions : manifest.functionSymbols intern = prepared.fns.map (·.1)
  handles : manifest.handleSymbols intern = prepared.classes.map (·.1)
  conditions :
    manifest.conditionSymbols intern =
      prepared.ctx.errorConditions.map (·.2)

theorem prepareGeneration_names {host : LoadHost} {library : Library}
    {registry : Registry} {crate : Crate} {image : LibraryImage}
    {manifest : Manifest} {prepared : Prepared}
    (hprepare : prepareGeneration host library registry crate image manifest =
      .ok prepared) :
    prepared.Names manifest (host.intern crate.package) := by
  obtain ⟨_, -, hprepare⟩ := LispResult.bind_eq_ok.mp hprepare
  obtain ⟨_, -, hprepare⟩ := LispResult.bind_eq_ok.mp hprepare
  obtain ⟨_, -, hprepare⟩ := LispResult.bind_eq_ok.mp hprepare
  obtain ⟨_, -, hprepare⟩ := LispResult.bind_eq_ok.mp hprepare
  obtain ⟨conditions, hconditions, hprepare⟩ :=
    LispResult.bind_eq_ok.mp hprepare
  obtain ⟨classes, hclasses, hprepare⟩ := LispResult.bind_eq_ok.mp hprepare
  obtain ⟨fns, hfns, hprepare⟩ := LispResult.bind_eq_ok.mp hprepare
  cases hprepare
  constructor
  · exact filterMap_toOption_eq_map (collect_eq_ok hfns)
      fun _ _ hfn => (prepareFn_intern hfn).1
  · exact filterMap_toOption_eq_map (collect_eq_ok hclasses)
      fun _ _ hclass => (prepareClass_eq_ok hclass).1
  · exact mapcar_conditions hconditions

/-- Every declared function has its wrapper among those prepared. -/
theorem prepareGeneration_wraps {host : LoadHost} {library : Library}
    {registry : Registry} {crate : Crate} (next : Crate)
    {image : LibraryImage} {manifest : Manifest} {prepared : Prepared}
    (hprepare : prepareGeneration host library registry crate image manifest =
      .ok prepared)
    (hname : next.name = crate.name)
    (hgeneration : next.generation = prepared.ctx.generation)
    (hlibrary : next.libHandle = some library)
    {f : FnSpec} (hf : f ∈ manifest.functions) :
    ∃ sym doc w, (sym, doc, w) ∈ prepared.fns ∧
      host.intern crate.package (stringUpcase f.lispName) = .ok sym ∧
      w.Wraps next manifest f := by
  obtain ⟨_, -, hprepare⟩ := LispResult.bind_eq_ok.mp hprepare
  obtain ⟨_, -, hprepare⟩ := LispResult.bind_eq_ok.mp hprepare
  obtain ⟨_, -, hprepare⟩ := LispResult.bind_eq_ok.mp hprepare
  obtain ⟨_, -, hprepare⟩ := LispResult.bind_eq_ok.mp hprepare
  obtain ⟨_, -, hprepare⟩ := LispResult.bind_eq_ok.mp hprepare
  obtain ⟨classes, -, hprepare⟩ := LispResult.bind_eq_ok.mp hprepare
  obtain ⟨fns, hfns, hprepare⟩ := LispResult.bind_eq_ok.mp hprepare
  cases hprepare
  obtain ⟨⟨sym, doc, w⟩, hentry, hfn⟩ := collect_mem_of_mem hfns hf
  have hwrapper := prepareFn_eq_ok hfn
  have hptr := LibraryImage.resolve_eq_ok hwrapper.2.2.1
  simp only at hwrapper hptr
  refine ⟨sym, doc, w, hentry, (prepareFn_intern hfn).1, ?_⟩
  constructor
  · rw [hwrapper.1, hname]
  · rw [hwrapper.2.1, hgeneration]
  · rw [hlibrary, hptr]
  · rw [hptr]
  · exact hwrapper.2.2.2.1

/-! ## A successful load -/

namespace PackageState

/-- The state after the load of `opened`. -/
def afterLoad (state : PackageState) (action : LoadStep) (args : LoadArgs)
    (opened : Opened) (prepared : Prepared) : PackageState where
  registry := state.registry.afterLoad action.host action.library args opened
    prepared
  interned := Function.update state.interned opened.manifest.crate
    (action.host.intern (state.registry.entryFor args opened).package)

/-- What a call that returns a crate does. -/
inductive Loads (state : PackageState) (action : LoadStep) :
    PackageState → Prop
  | loaded (args : LoadArgs) (opened : Opened) (prepared : Prepared)
      (hargs : action.call.args state.registry = .ok args)
      (hadmitted : admitLoad action.host args = .ok opened)
      (hprepare : prepareGeneration action.host action.library
        (state.registry.register opened.manifest.crate args.package)
        (state.registry.entryFor args opened) opened.image opened.manifest =
          .ok prepared)
      (hreturned : (action.call.run state.registry action.host action.refusal
        action.library).2 = .ok opened.manifest.crate) :
      Loads state action (state.afterLoad action args opened prepared)

theorem loads_of_step {state next : PackageState} {action : LoadStep}
    (hstep : state.load action = some next) : state.Loads action next := by
  unfold load at hstep
  split at hstep
  · cases hstep
  · rename_i registry name hrun
    have hreturned :
        (action.call.run state.registry action.host action.refusal
          action.library).2 = .ok name := by
      rw [hrun]
    unfold LoadCall.run at hrun
    split at hrun
    · cases hrun
    · rename_i args hargs
      obtain ⟨opened, prepared, hadmitted, hprepare, rfl, rfl⟩ :=
        Registry.loadCrateLocked_eq_ok hrun
      have hpackage :
          packageOf (state.registry.afterLoad action.host action.library args
              opened prepared) opened.manifest.crate =
            (state.registry.entryFor args opened).package := by
        rw [packageOf, Registry.crates_afterLoad_self]
        rfl
      rw [hpackage] at hstep
      cases hstep
      exact .loaded args opened prepared hargs hadmitted hprepare hreturned

/-! ## The invariant -/

/-- The function symbols of different crates are different, `symbols` holds no
others, and the classes are those of their crates. -/
structure Invariant (state : PackageState) : Prop where
  names : state.registry.NamesMatch
  bound : state.FunctionsBound
  symbols : ∀ name crate, state.registry.crates name = some crate →
    ∀ sym ∈ crate.symbols, sym ∈ state.functionSymbols name
  apart : ∀ name other, other ≠ name →
    (state.functionSymbols other).Disjoint (state.functionSymbols name)
  owners : ∀ name, ∀ sym ∈ state.handleSymbols name,
    state.registry.classOwner sym = some name
  conditions : ∀ name, ∀ sym ∈ state.conditionSymbols name,
    sym ∉ state.handleSymbols name →
      state.registry.classes sym = some .conditionClass

/-- A crate that is not touched keeps its names. -/
structure SameNames (state next : PackageState) (name : String) : Prop where
  crate : next.registry.crates name = state.registry.crates name
  functions : next.functionSymbols name = state.functionSymbols name
  handles : next.handleSymbols name = state.handleSymbols name
  conditions : next.conditionSymbols name = state.conditionSymbols name

theorem SameNames.of_eq {state next : PackageState} {name : String}
    (hcrate : next.registry.crates name = state.registry.crates name)
    (hinterned : next.interned name = state.interned name) :
    state.SameNames next name := by
  have hmanifest : next.manifestOf name = state.manifestOf name := by
    unfold manifestOf
    rw [hcrate]
  constructor
  · exact hcrate
  · rw [functionSymbols, functionSymbols, hmanifest, hinterned]
  · rw [handleSymbols, handleSymbols, hmanifest, hinterned]
  · rw [conditionSymbols, conditionSymbols, hmanifest, hinterned]

section Step

variable {state : PackageState} {action : LoadStep} {args : LoadArgs}
  {opened : Opened} {prepared : Prepared}

theorem sameNames_afterLoad {other : String}
    (hother : other ≠ opened.manifest.crate) :
    state.SameNames (state.afterLoad action args opened prepared) other := by
  apply SameNames.of_eq
  · exact Registry.crates_afterLoad_of_ne hother
  · exact Function.update_of_ne hother _ _

theorem manifestOf_afterLoad :
    (state.afterLoad action args opened prepared).manifestOf
      opened.manifest.crate = some opened.manifest := by
  unfold manifestOf afterLoad
  rw [Registry.crates_afterLoad_self]
  rfl

/-- The names of the loaded crate are those that were published. -/
theorem names_afterLoad
    (hnames : prepared.Names opened.manifest (action.host.intern
      (state.registry.entryFor args opened).package)) :
    (state.afterLoad action args opened prepared).functionSymbols
        opened.manifest.crate = prepared.fns.map (·.1) ∧
      (state.afterLoad action args opened prepared).handleSymbols
        opened.manifest.crate = prepared.classes.map (·.1) ∧
      (state.afterLoad action args opened prepared).conditionSymbols
        opened.manifest.crate = prepared.ctx.errorConditions.map (·.2) := by
  have hinterned :
      (state.afterLoad action args opened prepared).interned
          opened.manifest.crate =
        action.host.intern (state.registry.entryFor args opened).package :=
    Function.update_self _ _ _
  unfold functionSymbols handleSymbols conditionSymbols
  rw [manifestOf_afterLoad, hinterned]
  exact ⟨hnames.functions, hnames.handles, hnames.conditions⟩

/-- The functions that a load may unbind are the crate's own. -/
theorem Invariant.notMem_entry_symbols (hinv : state.Invariant)
    {other : String} (hother : other ≠ opened.manifest.crate) {sym : Symbol}
    (hsym : sym ∈ state.functionSymbols other) :
    sym ∉ (state.registry.entryFor args opened).symbols := by
  intro hentry
  rcases state.registry.crateFor_cases opened.manifest.crate args.package with
    hregistered | ⟨-, hfresh⟩
  · have hown := hinv.symbols _ _ hregistered sym hentry
    exact hinv.apart _ _ hother hsym hown
  · rw [Registry.entryFor, hfresh] at hentry
    cases hentry

variable
  (hprepare : prepareGeneration action.host action.library
    (state.registry.register opened.manifest.crate args.package)
    (state.registry.entryFor args opened) opened.image opened.manifest =
      .ok prepared)
  (hapart : state.KeepsApart opened.manifest (action.host.intern
    (state.registry.entryFor args opened).package))

include hprepare

/-- A handle of the manifest has no other crate for its owner. -/
theorem Invariant.owner_of_class (hinv : state.Invariant) {sym : Symbol}
    (hclass : sym ∈ prepared.classes.map (·.1)) {other : String}
    (howner : state.registry.classOwner sym = some other) :
    other = opened.manifest.crate := by
  have hname : (state.registry.entryFor args opened).name =
      opened.manifest.crate :=
    hinv.names.crateFor _ _
  have howners := (prepareGeneration_sound hprepare).owners sym hclass
  rw [Registry.classOwner_register, howner, hname] at howners
  simpa using howners

include hapart

theorem Invariant.framed_afterLoad (hinv : state.Invariant) :
    state.Framed (state.afterLoad action args opened prepared)
      opened.manifest.crate := by
  have hnames := prepareGeneration_names hprepare
  constructor
  · intro other hother
    exact Registry.crates_afterLoad_of_ne hother
  · intro other hother sym hsym
    have hnew : sym ∉ prepared.fns.map (·.1) := by
      rw [← hnames.functions]
      exact hapart.functions other hother hsym
    have hold : sym ∉ (state.registry.entryFor args opened).symbols :=
      hinv.notMem_entry_symbols hother hsym
    exact Registry.functions_afterLoad_of_notMem hnew hold
  · intro other hother sym hsym
    have hconditions : sym ∉ prepared.ctx.errorConditions.map (·.2) := by
      rw [← hnames.conditions]
      exact hapart.conditions other hother hsym
    have hclasses : sym ∉ prepared.classes.map (·.1) := by
      intro hclass
      exact hother (hinv.owner_of_class hprepare hclass
        (hinv.owners other sym hsym))
    exact Registry.classes_afterLoad_of_notMem hconditions hclasses
  · intro other hother sym hsym
    have hclasses : sym ∉ prepared.classes.map (·.1) := by
      rw [← hnames.handles]
      exact hapart.handles other hother hsym
    by_cases hcondition : sym ∈ prepared.ctx.errorConditions.map (·.2)
    · -- both crates declare it: the definition is the same
      have hhandle : sym ∉ state.handleSymbols other := by
        intro hhandle
        rw [← hnames.conditions] at hcondition
        exact hapart.conditions other hother hhandle hcondition
      have hbefore := hinv.conditions other sym hsym hhandle
      rw [hbefore]
      exact Registry.classes_published_of_condition _ _ _ hcondition hclasses
    · exact Registry.classes_afterLoad_of_notMem hcondition hclasses

theorem Invariant.functionsBound_afterLoad (hinv : state.Invariant) :
    (state.afterLoad action args opened prepared).FunctionsBound := by
  have hnames := prepareGeneration_names hprepare
  have hframed := hinv.framed_afterLoad hprepare hapart
  intro name crate hcrate
  by_cases hname : name = opened.manifest.crate
  · subst hname
    have hentry : some crate = some _ :=
      hcrate.symm.trans Registry.crates_afterLoad_self
    cases hentry
    refine ⟨opened.manifest, rfl, fun f hf => ?_⟩
    obtain ⟨sym, doc, w, hfn, hsym, hwraps⟩ :=
      prepareGeneration_wraps
        { (state.registry.entryFor args opened).commitSlots action.host
            action.library opened prepared with
          symbols := prepared.fns.map (·.1) } hprepare rfl rfl rfl hf
    refine ⟨sym, w, ?_, ?_, hwraps⟩
    · exact (congrFun (Function.update_self _ _ _) _).trans hsym
    · apply Registry.functions_published_of_mem _ _ _ _ hfn
      rw [← hnames.functions]
      exact hapart.distinct
  · have hsame : (state.afterLoad action args opened prepared).registry.crates
        name = state.registry.crates name :=
      Registry.crates_afterLoad_of_ne hname
    obtain ⟨manifest, hmanifest, hfunctions⟩ :=
      hinv.bound name crate (hsame ▸ hcrate)
    refine ⟨manifest, hmanifest, fun f hf => ?_⟩
    obtain ⟨sym, w, hsym, hbound, hwraps⟩ := hfunctions f hf
    have hown : sym ∈ state.functionSymbols name := by
      have hdeclared : state.manifestOf name = some manifest := by
        rw [manifestOf, ← hsame, hcrate]
        exact hmanifest
      rw [functionSymbols, hdeclared]
      exact List.mem_filterMap.mpr ⟨f, hf, by rw [hsym]; rfl⟩
    refine ⟨sym, w, ?_, ?_, hwraps⟩
    · exact (congrFun (Function.update_of_ne hname _ _) _).trans hsym
    · exact (hframed.functions name hname sym hown).trans hbound

theorem Invariant.afterLoad (hinv : state.Invariant) :
    (state.afterLoad action args opened prepared).Invariant := by
  have hframed := hinv.framed_afterLoad hprepare hapart
  have hnames := prepareGeneration_names hprepare
  obtain ⟨hfunctions, hhandles, hconditions⟩ :=
    @names_afterLoad _ state action args opened prepared hnames
  have hentry := @Registry.crates_afterLoad_self _ state.registry action.host
    action.library args opened prepared
  have hsame : ∀ other, other ≠ opened.manifest.crate →
      state.SameNames (state.afterLoad action args opened prepared) other :=
    fun other hother => sameNames_afterLoad hother
  have hdisjoint : ∀ other, other ≠ opened.manifest.crate →
      (state.functionSymbols other).Disjoint (prepared.fns.map (·.1)) := by
    intro other hother
    rw [← hnames.functions]
    exact hapart.functions other hother
  constructor
  case names =>
    intro name crate hcrate
    by_cases hname : name = opened.manifest.crate
    · subst hname
      cases hcrate.symm.trans hentry
      exact hinv.names.crateFor _ _
    · rw [(hsame name hname).crate] at hcrate
      exact hinv.names name crate hcrate
  case bound => exact hinv.functionsBound_afterLoad hprepare hapart
  case symbols =>
    intro name crate hcrate sym hsym
    by_cases hname : name = opened.manifest.crate
    · subst hname
      cases hcrate.symm.trans hentry
      rw [hfunctions]
      exact hsym
    · rw [(hsame name hname).functions]
      rw [(hsame name hname).crate] at hcrate
      exact hinv.symbols name crate hcrate sym hsym
  case apart =>
    intro name other hne
    by_cases hname : name = opened.manifest.crate
    · subst hname
      rw [hfunctions, (hsame other hne).functions]
      exact hdisjoint other hne
    · rw [(hsame name hname).functions]
      by_cases hother : other = opened.manifest.crate
      · subst hother
        rw [hfunctions]
        exact (hdisjoint name hname).symm
      · rw [(hsame other hother).functions]
        exact hinv.apart name other hne
  case owners =>
    intro name sym hsym
    by_cases hname : name = opened.manifest.crate
    · subst hname
      rw [hhandles] at hsym
      exact Registry.classOwner_published_of_mem _ _ _ hsym
    · rw [(hsame name hname).handles] at hsym
      have howner := hinv.owners name sym hsym
      have hclass : sym ∉ prepared.classes.map (·.1) := fun hclass =>
        hname (hinv.owner_of_class hprepare hclass howner)
      exact (Registry.classOwner_afterLoad_of_notMem hclass).trans howner
  case conditions =>
    intro name sym hsym hhandle
    by_cases hname : name = opened.manifest.crate
    · subst hname
      rw [hconditions] at hsym
      rw [hhandles] at hhandle
      exact Registry.classes_published_of_condition _ _ _ hsym hhandle
    · rw [(hsame name hname).conditions] at hsym
      rw [(hsame name hname).handles] at hhandle
      exact (hframed.conditionClasses name hname sym hsym).trans
        (hinv.conditions name sym hsym hhandle)

end Step

/-- A package world in which no crate has been loaded. -/
structure Unloaded (state : PackageState) : Prop where
  crates : ∀ name, state.registry.crates name = none

theorem Unloaded.invariant {state : PackageState} (hfresh : state.Unloaded) :
    state.Invariant := by
  have hmanifest : ∀ name, state.manifestOf name = none := by
    intro name
    rw [manifestOf, hfresh.crates name]
    rfl
  constructor
  case names =>
    intro name crate hcrate
    simp [hfresh.crates] at hcrate
  case bound =>
    intro name crate hcrate
    simp [hfresh.crates] at hcrate
  case symbols =>
    intro name crate hcrate
    simp [hfresh.crates] at hcrate
  case apart =>
    intro name other _
    simp [functionSymbols, hmanifest]
  case owners =>
    intro name sym hsym
    simp [handleSymbols, hmanifest] at hsym
  case conditions =>
    intro name sym hsym
    simp [conditionSymbols, hmanifest] at hsym

/-- One load that keeps apart. -/
theorem Invariant.afterStep {state next : PackageState} {action : LoadStep}
    (hinv : state.Invariant) (hapart : action.KeepsApart state)
    (hstep : sharedPackage.step state action = some next) :
    next.Invariant ∧ ∃ name,
      (action.call.run state.registry action.host action.refusal
        action.library).2 = .ok name ∧
      state.Framed next name := by
  cases loads_of_step hstep with
  | loaded args opened prepared hargs hadmitted hprepare hreturned =>
      have hkeeps : state.KeepsApart opened.manifest (action.host.intern
          (state.registry.entryFor args opened).package) := by
        unfold LoadStep.KeepsApart at hapart
        rw [hargs] at hapart
        simp only [hadmitted] at hapart
        exact hapart
      exact ⟨hinv.afterLoad hprepare hkeeps, opened.manifest.crate,
        hreturned, hinv.framed_afterLoad hprepare hkeeps⟩

end PackageState

/-- As long as every load keeps its names apart from those of the other
crates, every load binds what its manifest names and changes nothing of
another crate. -/
theorem shared_package_frame (state : PackageState)
    (hfresh : state.Unloaded) (actions : List LoadStep)
    (hapart : sharedPackage.RunMeets (fun state action =>
      action.KeepsApart state) state actions) :
    sharedPackage.RunMeets (fun state action => action.MeetsFrame state)
      state actions := by
  refine hapart.of_invariant ?_ ?_ hfresh.invariant
  · intro before action next hkeeps hinv hstep
    exact (hinv.afterStep hkeeps hstep).1
  · intro before action hkeeps hinv next hstep
    have hafter := hinv.afterStep hkeeps hstep
    exact ⟨hafter.1.bound, hafter.2⟩

end Case

/-! ## Two crates in one package -/

attribute [local instance] standardCase

/-- A crate with one function `name`. -/
def greeterManifest (crate name : String) : Datum :=
  .cons (.keyword "RULISP-MANIFEST") (.ofPlist
    [("SCHEMA", .integer 1), ("ABI", .integer 1),
      ("CRATE", .string crate), ("PREFIX", .string (crate ++ "_rulisp_")),
      ("FUNCTIONS", .ofList
        [.cons (.keyword "FN") (.ofPlist
          [("RUST-NAME", .string name), ("LISP-NAME", .string name),
            ("SYMBOL", .string name), ("PARAMS", .nil),
            ("RESULT", .keyword "U64")])])])

/-- `(load-crate path :crate crate :package "GREETINGS")` of that crate. -/
def greeterLoad (crate name : String) (serial : ℕ) : LoadStep where
  call := .load "target/debug/libgreeter.so" (some crate) (some "GREETINGS")
  host :=
    { demoHost [] with
      dlopen := .ok
        { exports := ["abi_version", "manifest", "last_error", "dealloc",
            name].map fun short => crate ++ "_rulisp_" ++ short
          abiVersion := 1
          raw := ""
          form := .ok (greeterManifest crate name) } }
  refusal := none
  library := { serial, session := 0 }

def PackageState.fresh : PackageState where
  registry := .empty
  interned := fun _ _ => hostError .other

theorem PackageState.fresh_unloaded : PackageState.fresh.Unloaded :=
  ⟨fun _ => rfl⟩

def greetSymbol : Symbol := { home := "GREETINGS", name := "GREET" }

def alphaLoaded : PackageState :=
  (sharedPackage.step .fresh (greeterLoad "alpha" "greet" 1)).getD .fresh

theorem step_alphaLoaded :
    sharedPackage.step .fresh (greeterLoad "alpha" "greet" 1) =
      some alphaLoaded := by
  have hsome : (sharedPackage.step .fresh
      (greeterLoad "alpha" "greet" 1)).isSome = true := by
    decide +kernel
  obtain ⟨next, hnext⟩ := Option.isSome_iff_exists.mp hsome
  rw [alphaLoaded, hnext]
  rfl

/-- The second crate takes the first one's function. -/
theorem shared_package_overwritten :
    ¬ sharedPackage.RunMeets (fun state action => action.MeetsFrame state)
      .fresh [greeterLoad "alpha" "greet" 1, greeterLoad "beta" "greet" 2] := by
  intro hmeets
  have hrest := hmeets.2
  rw [step_alphaLoaded] at hrest
  have hsome : (sharedPackage.step alphaLoaded
      (greeterLoad "beta" "greet" 2)).isSome = true := by
    decide +kernel
  obtain ⟨next, hnext⟩ := Option.isSome_iff_exists.mp hsome
  obtain ⟨name, hname, hframed⟩ := (hrest.1 next hnext).2
  have hbeta : name = "beta" := by
    have hreturned : ((greeterLoad "beta" "greet" 2).call.run
        alphaLoaded.registry (greeterLoad "beta" "greet" 2).host none
        (greeterLoad "beta" "greet" 2).library).2 = .ok "beta" := by
      decide +kernel
    cases hname.symm.trans hreturned
    rfl
  have hgreet := hframed.functions "alpha" (by rw [hbeta]; decide)
    greetSymbol (by decide +kernel)
  have hchanged : ((sharedPackage.step alphaLoaded
      (greeterLoad "beta" "greet" 2)).map fun state =>
        state.registry.functions greetSymbol) ≠
      some (alphaLoaded.registry.functions greetSymbol) := by
    decide +kernel
  rw [hnext] at hchanged
  exact hchanged (congrArg some hgreet)

/-- A load keeps apart when the manifest it opens does. -/
theorem LoadStep.KeepsApart.of_opened {state : PackageState}
    {action : LoadStep} {args : LoadArgs} {manifest : Manifest}
    (hargs : action.call.args state.registry = .ok args)
    (hopened : (admitLoad action.host args).map Opened.manifest =
      .ok manifest)
    (hapart : state.KeepsApart manifest (action.host.intern
      (state.registry.crateFor manifest.crate args.package).package)) :
    action.KeepsApart state := by
  unfold LoadStep.KeepsApart
  rw [hargs]
  simp only
  split
  · trivial
  · rename_i opened hadmitted
    rw [hadmitted] at hopened
    cases hopened
    exact hapart

theorem PackageState.KeepsApart.of_alone {state : PackageState}
    {manifest : Manifest} {intern : String → LispResult Symbol}
    (halone : ∀ other, other ≠ manifest.crate → state.manifestOf other = none)
    (hdistinct : (manifest.functionSymbols intern).Nodup) :
    state.KeepsApart manifest intern := by
  constructor
  · exact hdistinct
  · intro other hother
    simp [functionSymbols, halone other hother]
  · intro other hother
    simp [handleSymbols, halone other hother]
  · intro other hother
    simp [conditionSymbols, halone other hother]

def greeterParsed (crate name : String) : Manifest where
  schema := 1
  abi := 1
  crate := crate
  crateVersion := none
  target := none
  pfx := crate ++ "_rulisp_"
  errors := .nil
  handles := []
  functions :=
    [{ rustName := name, lispName := name, symbol := name, params := [],
       result := .keyword "U64", error := none, doc := none }]
  onDump := none
  rulispVersion := none

def greeterArgs (crate : String) : LoadArgs where
  path := some "target/debug/libgreeter.so"
  crateArg := some crate
  package := some "GREETINGS"

/-- Two crates with different names. -/
theorem shared_package_frame_greeters :
    sharedPackage.RunMeets (fun state action => action.MeetsFrame state)
      .fresh
      [greeterLoad "alpha" "greet" 1, greeterLoad "beta" "part" 2] := by
  have hfirst : (greeterLoad "alpha" "greet" 1).KeepsApart .fresh := by
    have hopened :
        (admitLoad (greeterLoad "alpha" "greet" 1).host
          (greeterArgs "alpha")).map Opened.manifest =
            .ok (greeterParsed "alpha" "greet") := by
      decide +kernel
    exact .of_opened rfl hopened (.of_alone (fun _ _ => rfl) (by decide))
  have hsecond : (greeterLoad "beta" "part" 2).KeepsApart alphaLoaded := by
    have hopened :
        (admitLoad (greeterLoad "beta" "part" 2).host
          (greeterArgs "beta")).map Opened.manifest =
            .ok (greeterParsed "beta" "part") := by
      decide +kernel
    have hframed := (PackageState.fresh_unloaded.invariant.afterStep hfirst
      step_alphaLoaded).2
    have halone : ∀ other, other ≠ "alpha" →
        alphaLoaded.manifestOf other = none := by
      intro other hother
      obtain ⟨name, hname, hframed⟩ := hframed
      have hreturned : ((greeterLoad "alpha" "greet" 1).call.run .empty
          (greeterLoad "alpha" "greet" 1).host none
          (greeterLoad "alpha" "greet" 1).library).2 = .ok "alpha" := by
        decide +kernel
      cases hname.symm.trans hreturned
      rw [PackageState.manifestOf, hframed.crates other hother]
      rfl
    have hnames : alphaLoaded.functionSymbols "alpha" = [greetSymbol] ∧
        alphaLoaded.handleSymbols "alpha" = [] ∧
        alphaLoaded.conditionSymbols "alpha" = [] := by
      decide +kernel
    refine .of_opened rfl hopened ?_
    constructor
    · decide +kernel
    · intro other hother
      by_cases halpha : other = "alpha"
      · rw [halpha, hnames.1, List.singleton_disjoint]
        decide +kernel
      · simp [PackageState.functionSymbols, halone other halpha]
    · intro other hother
      by_cases halpha : other = "alpha"
      · simp [halpha, hnames.2.1]
      · simp [PackageState.handleSymbols, halone other halpha]
    · intro other hother
      by_cases halpha : other = "alpha"
      · simp [halpha, hnames.2.2]
      · simp [PackageState.conditionSymbols, halone other halpha]
  have hapart : sharedPackage.RunMeets (fun state action =>
      action.KeepsApart state) .fresh
      [greeterLoad "alpha" "greet" 1, greeterLoad "beta" "part" 2] := by
    refine ⟨hfirst, ?_⟩
    rw [step_alphaLoaded]
    refine ⟨hsecond, ?_⟩
    split <;> trivial
  exact shared_package_frame .fresh PackageState.fresh_unloaded _ hapart

end Rulisp
