import Rulisp.LoadAtomicity
import Rulisp.MacroAcceptance
import Rulisp.ManifestAcceptance
import Rulisp.PublishedLoad

/-!
# Loads of built crates

From the declarations of a crate to its functions in the registry: what the
macros put into the library is opened, read and bound, if the declarations
meet what the loader asks of them beyond what the macros do.
-/

namespace Rulisp

open LispReader

/-! ## The library of a crate -/

namespace ModuleDecl

variable {case : CaseMapping} (m : ModuleDecl case)

/-- The symbols of `module!`, of the handles and of the exports. -/
def exports : List String :=
  (["abi_version", "manifest", "last_error", "dealloc"] ++
    m.handleMetas.map HandleMeta.freeSymbol ++
    m.fnMetas.map FnMeta.symbol).map (m.pfx ++ ·)

def image (readHost : ReadHost) (build : RuntimeBuild) : LibraryImage where
  exports := m.exports
  abiVersion := abiVersion
  raw := m.manifestStr build
  form := safeRead readHost (m.manifestStr build) >>= sanitize

/-- The handle type is among those that `module!` lists. -/
def Declares (rustName : String) : Prop := ∃ h ∈ m.handles, h.name = rustName

/-- What the loader asks of an export beyond what the macros do. -/
structure Wraps (e : Export) : Prop where
  callbacks : (e.params.filter (·.2.isCallback)).length ≤ 1
  params : ∀ p ∈ e.params, ∀ rustName ∈ p.2.handleName, m.Declares rustName
  result : ∀ rustName ∈ e.result.handleName, m.Declares rustName

theorem own_mem_exports {short : String}
    (hshort : short ∈ ["abi_version", "manifest", "last_error", "dealloc"]) :
    m.pfx ++ short ∈ m.exports :=
  List.mem_map_of_mem
    (List.mem_append_left _ (List.mem_append_left _ hshort))

theorem symbol_mem_exports {e : Export} (he : e ∈ m.fns) :
    m.pfx ++ e.symbol case ∈ m.exports := by
  have hmeta : genMetaConst (e.exported case) ∈ m.fnMetas :=
    List.mem_map_of_mem he
  have hsymbol := @List.mem_map_of_mem _ _ _ _ FnMeta.symbol hmeta
  exact List.mem_map_of_mem (List.mem_append_right _ hsymbol)

end ModuleDecl

/-- The host finds the artifact, opens the library and refuses nothing. -/
structure LoadHost.Serves (host : LoadHost) (path : String)
    (image : LibraryImage) (target : String) : Prop where
  directory : host.directoryExists = false
  probed : host.probedFile = some path
  shape : host.shapeRefusal = none
  copied : host.copyRefusal = none
  opened : host.dlopen = .ok image
  compatible : host.targetCompatible target = true
  home : ∀ package name, ∃ home, host.home package name = .ok home
  compiled : ∀ f, host.compileRefusal f = none
  swept : host.sweepRefusal = none

/-! ## Functions -/

section Functions

variable {case : CaseMapping} {m : ModuleDecl case}

theorem PTy.handleNamed (pty : PTy) : HandleNamed pty.meta.datum := by
  cases pty with
  | handleRef rustName => exact handleNamed_handle.mpr ⟨rustName, rfl⟩
  | scalar _ | bool | strRef | bytesRef => rintro _ ⟨⟩
  | callback _ | storedCallback _ | optionScalar _ | optionStr | optionBytes
  | vecScalar _ => exact handleNamed_of_ne (by decide)

theorem RTy.handleNamed (rty : RTy) : HandleNamed rty.meta.datum := by
  cases rty with
  | handle rustName => exact handleNamed_handle.mpr ⟨rustName, rfl⟩
  | unit | scalar _ | bool | str | bytes => rintro _ ⟨⟩
  | optionScalar _ | optionStr | optionBytes | vecScalar _ =>
      exact handleNamed_of_ne (by decide)

theorem handlesNamed_genMetaConst (f : ExportedFn) :
    HandlesNamed (genMetaConst f).spec := by
  constructor
  · intro p hp
    obtain ⟨_, hmeta, rfl⟩ := List.mem_map.mp hp
    obtain ⟨param, -, rfl⟩ := List.mem_map.mp hmeta
    exact param.2.handleNamed
  · exact f.result.handleNamed

/-- A handle's name resolves if the handle is declared. -/
theorem classed_handleMetas [LispCase] {intern : String → LispResult Symbol}
    (hintern : ∀ name, ∃ sym, intern name = .ok sym) (rustName : String) :
    Classed (classNameFor (m.handleMetas.map HandleMeta.spec) intern)
      rustName ↔ m.Declares rustName := by
  unfold Classed ModuleDecl.Declares
  rw [classNameFor_ok_iff hintern]
  constructor
  · rintro ⟨_, hmem, hname⟩
    obtain ⟨_, hmeta, rfl⟩ := List.mem_map.mp hmem
    obtain ⟨h, hh, rfl⟩ := List.mem_map.mp hmeta
    cases hname
    exact ⟨h, hh, rfl⟩
  · rintro ⟨h, hh, rfl⟩
    exact ⟨_, List.mem_map_of_mem (List.mem_map_of_mem hh), rfl⟩

theorem fnBinds_iff [LispCase] {readHost : ReadHost} {build : RuntimeBuild}
    {e : Export} (he : e ∈ m.fns) :
    FnBinds (m.image readHost build) (m.manifest build)
      (genMetaConst (e.exported case)).spec ↔ m.Wraps e := by
  have hintern : ∀ name, ∃ sym : Symbol,
      (.ok { home := "", name } : LispResult Symbol) = .ok sym :=
    fun _ => ⟨_, rfl⟩
  have hwraps : WrapperRead (m.manifest build).handles
      (genMetaConst (e.exported case)).spec ↔ m.Wraps e := by
    rw [← @wrapperForm_ok_iff _ _ _ _ "" hintern]
    have hread := @wrapperForm_iff (classNameFor
      (m.handleMetas.map HandleMeta.spec) fun name =>
        (.ok { home := "", name } : LispResult Symbol))
      _ (e.exported case) (e.lispName case) ""
    simp only [classed_handleMetas hintern] at hread
    refine hread.trans ?_
    exact ⟨fun h => ⟨h.1, h.2.1, h.2.2⟩,
      fun h => ⟨h.callbacks, h.params, h.result⟩⟩
  constructor
  · intro hbinds
    exact hwraps.mp hbinds.wraps
  · intro h
    exact ⟨m.symbol_mem_exports he, hwraps.mpr h, handlesNamed_genMetaConst _⟩

end Functions

/-! ## Pots -/

/-- `#[rulisp(constructor)] pub fn with_capacity(capacity: u64) ->
Result<Pot, PotError>`. -/
def potNew : Export where
  doc := none
  name := "with_capacity"
  kind := .constructor "Pot" none
  params := [("capacity", .scalar .u64)]
  result := .handle "Pot"
  error := some "PotError"
  isName := by decide
  selfTy := by decide
  explicitName := by decide
  paramNames := by decide
  paramHandles := by decide
  resultHandle := by decide
  errorName := by decide

/-- `pub fn level(&self) -> Result<u64, PotError>`. -/
def potLevel : Export where
  doc := none
  name := "level"
  kind := .method "Pot"
  params := [("self", .handleRef "Pot")]
  result := .scalar .u64
  error := some "PotError"
  isName := by decide
  selfTy := by decide
  explicitName := by decide
  paramNames := by decide
  paramHandles := by decide
  resultHandle := by decide
  errorName := by decide

/-- A second constructor, with `name = "MAKE-POT"`. -/
def potFilled : Export :=
  { potNew with
    name := "filled"
    kind := .constructor "Pot" (some "MAKE-POT")
    isName := by decide
    selfTy := by decide
    explicitName := by decide }

theorem isName_count : IsName "count" := by decide

theorem noParams_paramNames :
    ∀ p ∈ ([] : List (String × PTy)), IsName p.1 := nofun

theorem noParams_paramHandles :
    ∀ p ∈ ([] : List (String × PTy)), ∀ rustName ∈ p.2.handleName,
      IsName rustName := nofun

theorem noError_errorName : ∀ e ∈ (none : Option String), IsName e := by
  decide

/-- `#[rulisp::export] pub fn count() -> u64`. -/
def potCount : Export where
  doc := none
  name := "count"
  kind := .free
  params := []
  result := .scalar .u64
  error := none
  isName := isName_count
  selfTy := by decide
  explicitName := by decide
  paramNames := noParams_paramNames
  paramHandles := noParams_paramHandles
  resultHandle := by decide
  errorName := noError_errorName

def potDecl : HandleDecl where
  doc := none
  name := "Pot"
  isName := by decide

def potModule : ModuleDecl asciiCase where
  name := "pots"
  version := "0.2.0"
  handles := [potDecl]
  fns := [potNew, potLevel]
  onDump := none
  isName := by decide
  isVersion := by decide
  symbols := fun _ he _ he' => List.inj_on_of_nodup_map (by decide) he he'
  onDumpFn := nofun

/-- The handle is left out of `module!`. -/
def undeclaredModule : ModuleDecl asciiCase :=
  { potModule with handles := [] }

/-- Two constructors whose names differ in their case only. -/
def shadowedModule : ModuleDecl asciiCase :=
  { potModule with
    fns := [potNew, potFilled]
    symbols := fun _ he _ he' => List.inj_on_of_nodup_map (by decide) he he'
    onDumpFn := nofun }

/-- Two constructors that leave their names to the macro: both are
`make-pot`. -/
def doubledModule : ModuleDecl asciiCase :=
  { potModule with
    fns := [potNew, { potNew with name := "filled", isName := by decide }]
    symbols := fun _ he _ he' => List.inj_on_of_nodup_map (by decide) he he'
    onDumpFn := nofun }

/-- The hook of the crate returns a value. -/
def countingModule : ModuleDecl asciiCase :=
  { potModule with
    fns := [potCount]
    onDump := some "count"
    symbols := fun _ he _ he' => List.inj_on_of_nodup_map (by decide) he he'
    onDumpFn := by
      rintro _ ⟨⟩
      exact ⟨potCount, .head _, rfl, rfl, rfl⟩ }

/-- A host with the built library of a crate. -/
def moduleHost (m : ModuleDecl asciiCase) : LoadHost :=
  { demoHost [] with
    probedFile := some "target/debug/libpots.so"
    dlopen := .ok (m.image plainHost linuxBuild) }

def moduleLoad : LoadArgs where
  path := some "target/debug/libpots.so"
  crateArg := none
  package := none

theorem moduleHost_serves (m : ModuleDecl asciiCase) :
    (moduleHost m).Serves "target/debug/libpots.so"
      (m.image plainHost linuxBuild) linuxBuild.target where
  directory := rfl
  probed := rfl
  shape := rfl
  copied := rfl
  opened := rfl
  compatible := rfl
  home := fun package _ => ⟨package, rfl⟩
  compiled := fun _ => rfl
  swept := rfl

theorem declares_pot {m : ModuleDecl asciiCase} (hpot : potDecl ∈ m.handles) :
    ∀ rustName ∈ some "Pot", m.Declares rustName := by
  rintro _ ⟨⟩
  exact ⟨potDecl, hpot, rfl⟩

/-- A constructor of pots. -/
theorem wraps_potNew {m : ModuleDecl asciiCase} (hpot : potDecl ∈ m.handles) :
    m.Wraps potNew := by
  refine ⟨by decide, ?_, declares_pot hpot⟩
  intro p hp
  obtain rfl := List.mem_singleton.mp hp
  exact nofun

theorem wraps_potLevel {m : ModuleDecl asciiCase} (hpot : potDecl ∈ m.handles) :
    m.Wraps potLevel := by
  refine ⟨by decide, ?_, nofun⟩
  intro p hp
  obtain rfl := List.mem_singleton.mp hp
  exact declares_pot hpot

/-! ## Phase 1 -/

section Load

variable {case : CaseMapping} {m : ModuleDecl case} {build : RuntimeBuild}
  {readHost : ReadHost} {host : LoadHost} {path : String}

theorem symbolsResolve_image :
    SymbolsResolve (m.image readHost build) (m.manifest build) := by
  constructor
  case lastError => exact m.own_mem_exports (by decide)
  case dealloc => exact m.own_mem_exports (by decide)
  case onDump =>
    intro symbol hsymbol
    obtain ⟨e, he, rfl, -⟩ := m.find_onDump build hsymbol
    exact m.symbol_mem_exports he
  case frees =>
    intro h hh
    obtain ⟨_, hmeta, rfl⟩ := List.mem_map.mp hh
    apply List.mem_map_of_mem
    exact List.mem_append_left _
      (List.mem_append_right _ (List.mem_map_of_mem hmeta))

theorem phaseOne_image_iff [LispCase] {registry : Registry} {crate : Crate} :
    PhaseOne host registry crate (m.image readHost build) (m.manifest build) ↔
      (∀ e ∈ m.fns, m.Wraps e) ∧
      ∀ h ∈ m.handleMetas, OwnsClass host registry crate h.spec := by
  constructor
  · intro hphase
    refine ⟨fun e he => (fnBinds_iff he).mp (hphase.binds _ ?_), fun h hh => ?_⟩
    · exact List.mem_map_of_mem (List.mem_map_of_mem he)
    · exact hphase.owns _ (List.mem_map_of_mem hh)
  · rintro ⟨hwraps, howns⟩
    constructor
    case resolves => exact symbolsResolve_image
    case errors =>
      unfold ModuleDecl.manifest
      cases seenErrors m.fnMetas <;> exact nofun
    case owns =>
      intro h hh
      obtain ⟨hmeta, hmem, rfl⟩ := List.mem_map.mp hh
      exact howns hmeta hmem
    case binds =>
      intro f hf
      obtain ⟨_, hmeta, rfl⟩ := List.mem_map.mp hf
      obtain ⟨e, he, rfl⟩ := List.mem_map.mp hmeta
      exact (fnBinds_iff he).mpr (hwraps e he)

theorem prepareGeneration_image_iff [LispCase] {target : String}
    {registry : Registry} {library : Library} {package : Option String}
    (hserves : host.Serves path (m.image readHost build) target) :
    (∃ prepared, prepareGeneration host library
      (registry.register m.name package) (registry.crateFor m.name package)
      (m.image readHost build) (m.manifest build) = .ok prepared) ↔
      (∀ e ∈ m.fns, m.Wraps e) ∧ ∀ h ∈ m.handleMetas,
        OwnsClass host registry (registry.crateFor m.name package) h.spec := by
  have hintern : ∀ package name, ∃ sym, host.intern package name = .ok sym := by
    intro package name
    obtain ⟨home, hhome⟩ := hserves.home package name
    exact ⟨_, LispResult.bind_eq_ok.mpr ⟨home, hhome, rfl⟩⟩
  have howner : ∀ h, OwnsClass host (registry.register m.name package)
      (registry.crateFor m.name package) h ↔
        OwnsClass host registry (registry.crateFor m.name package) h := by
    intro h
    unfold OwnsClass
    rw [Registry.classOwner_register]
  rw [prepareGeneration_ok_iff (hintern _) hserves.compiled
    (.inr ⟨seenErrors m.fnMetas, rfl⟩)]
  refine phaseOne_image_iff.trans (and_congr_right fun _ => ?_)
  exact forall₂_congr fun h _ => howner h.spec

/-! ## Admission -/

variable {argument : String} {crateArg package : Option String}

/-- The manifest of the library is taken if the loader's own checks pass. -/
theorem image_parses_iff (hplain : ∀ e ∈ m.fns, '\\' ∉ (e.lispName case).toList)
    {parsed : Manifest} :
    ((m.image readHost build).form >>= parseManifest) = .ok parsed ↔
      m.Checked ∧ m.manifest build = parsed := by
  have hread : (m.image readHost build).form = .ok (m.form build) :=
    m.read_of_plain build hplain
  rw [hread, ← m.parseManifest_form_iff build]
  rfl

theorem checked_of_admitLoad {args : LoadArgs} {opened : Opened}
    (hopened : host.dlopen = .ok (m.image readHost build))
    (hplain : ∀ e ∈ m.fns, '\\' ∉ (e.lispName case).toList)
    (hadmitted : admitLoad host args = .ok opened) :
    m.Checked ∧ opened.image = m.image readHost build ∧
      opened.manifest = m.manifest build := by
  obtain ⟨hdlopen, hparsed⟩ := admitLoad_manifest hadmitted
  have himage : opened.image = m.image readHost build := by
    rw [hopened, Except.ok.injEq] at hdlopen
    exact hdlopen.symm
  rw [himage, image_parses_iff hplain] at hparsed
  exact ⟨hparsed.1, himage, hparsed.2.symm⟩

/-- The library under the crate's own name, or under one that `:crate` puts
right, passes everything that comes before its registration. -/
theorem admitLoad_image (hchecked : m.Checked)
    (hserves : host.Serves path (m.image readHost build) build.target)
    (hplain : ∀ e ∈ m.fns, '\\' ∉ (e.lispName case).toList)
    (hname : underscored (crateArg.getD (deriveCrateName (pathnameName path))) =
      underscored m.name) :
    admitLoad host { path := some argument, crateArg, package } =
      .ok
        { path
          image := m.image readHost build
          manifest := m.manifest build } := by
  have hcopied : copyArtifact host
      { path := some argument, crateArg, package } =
        .ok { path, provisional := underscored m.name } := by
    refine LispResult.bind_eq_ok.mpr
      ⟨(), errorUnless_eq_ok.mpr hserves.directory, ?_⟩
    have hprobe : host.probe (some argument) = .ok path := by
      simp only [LoadHost.probe, hserves.probed]
    refine LispResult.bind_eq_ok.mpr ⟨path, hprobe, ?_⟩
    have hshape : host.checkArtifactShape path = .ok () := by
      simp only [LoadHost.checkArtifactShape, hserves.shape]
    refine LispResult.bind_eq_ok.mpr ⟨(), hshape, ?_⟩
    refine LispResult.bind_eq_ok.mpr
      ⟨(), hostStep_eq_ok.mpr hserves.copied, ?_⟩
    rw [hname]
    rfl
  have hopened : openAndVerify host (underscored m.name) m.pfx path =
      .ok (m.image readHost build, m.manifest build) := by
    have hdlopen : host.dlopen.mapError (LoadCondition.crateNotLoaded path) =
        .ok (m.image readHost build) := by
      rw [hserves.opened]
      rfl
    have hparsed : ((m.image readHost build).form >>= parseManifest) =
        .ok (m.manifest build) :=
      (image_parses_iff hplain).mpr ⟨hchecked, rfl⟩
    obtain ⟨datum, hform, hparse⟩ := LispResult.bind_eq_ok.mp hparsed
    refine LispResult.bind_eq_ok.mpr ⟨_, hdlopen, ?_⟩
    refine LispResult.bind_eq_ok.mpr
      ⟨(), errorUnless_eq_ok.mpr (m.own_mem_exports (by decide)), ?_⟩
    refine LispResult.bind_eq_ok.mpr ⟨(), errorUnless_eq_ok.mpr rfl, ?_⟩
    refine LispResult.bind_eq_ok.mpr
      ⟨(), errorUnless_eq_ok.mpr (m.own_mem_exports (by decide)), ?_⟩
    refine LispResult.bind_eq_ok.mpr ⟨datum, hform, ?_⟩
    refine LispResult.bind_eq_ok.mpr ⟨_, hparse, ?_⟩
    refine LispResult.bind_eq_ok.mpr ⟨(), errorUnless_eq_ok.mpr rfl, ?_⟩
    refine LispResult.bind_eq_ok.mpr
      ⟨(), errorUnless_eq_ok.mpr hserves.compatible, ?_⟩
    rfl
  have hnamed : checkCrateName m.name crateArg = .ok () := by
    cases crateArg with
    | none => rfl
    | some name => exact errorUnless_eq_ok.mpr hname.symm
  refine LispResult.bind_eq_ok.mpr ⟨_, hcopied, ?_⟩
  refine LispResult.bind_eq_ok.mpr ⟨_, hopened, ?_⟩
  exact LispResult.bind_eq_ok.mpr ⟨(), hnamed, rfl⟩

/-- With nothing refused, an admitted load ends as its preparation does. -/
theorem loadCrateLocked_ok_iff [LispCase] {registry : Registry}
    {library : Library} {args : LoadArgs} {opened : Opened}
    (hadmitted : admitLoad host args = .ok opened)
    (hswept : host.sweepRefusal = none) :
    (∃ next, registry.loadCrateLocked host none library args =
      (next, .ok opened.manifest.crate)) ↔
      ∃ prepared, prepareGeneration host library
        (registry.register opened.manifest.crate args.package)
        (registry.entryFor args opened) opened.image opened.manifest =
          .ok prepared := by
  constructor
  · rintro ⟨next, hload⟩
    obtain ⟨found, prepared, hfound, hprepared, -⟩ :=
      Registry.loadCrateLocked_eq_ok hload
    cases hadmitted.symm.trans hfound
    exact ⟨prepared, hprepared⟩
  · rintro ⟨prepared, hprepared⟩
    have hpublished := fun ops begun =>
      (Registry.publishAll_refused_iff opened.manifest.crate
        (registry.entryFor args opened).package none ops begun).mpr id
    unfold Registry.entryFor at hprepared hpublished
    simp only [Registry.loadCrateLocked, Registry.beginLoad, hadmitted,
      hprepared]
    generalize hpublish : Registry.publishAll _ _ none _ _ = published
    obtain ⟨published, refused⟩ := published
    obtain rfl : refused = none := by
      rw [← hpublished, hpublish]
    simp only [hswept]
    exact ⟨published, rfl⟩

/-- A crate that its macros accept is loaded if and only if its Lisp names are
distinct and its hook returns nothing, its exports name only declared handle
types, none has two borrowed callbacks, and no other crate has one of its
classes. -/
theorem module_loads_iff [LispCase] {case : CaseMapping} (m : ModuleDecl case)
    (build : RuntimeBuild) (readHost : ReadHost) (registry : Registry)
    (host : LoadHost) (library : Library) (path argument : String)
    (crateArg package : Option String)
    (hserves : host.Serves path (m.image readHost build) build.target)
    (hplain : ∀ e ∈ m.fns, '\\' ∉ (e.lispName case).toList)
    (hname : underscored (crateArg.getD (deriveCrateName (pathnameName path))) =
      underscored m.name) :
    (∃ next, registry.loadCrateLocked host none library
      { path := some argument, crateArg, package } = (next, .ok m.name)) ↔
      m.Checked ∧ (∀ e ∈ m.fns, m.Wraps e) ∧ ∀ h ∈ m.handleMetas,
        OwnsClass host registry (registry.crateFor m.name package) h.spec := by
  by_cases hchecked : m.Checked
  · have hadmitted := @admitLoad_image _ m build readHost host path argument
      crateArg package hchecked hserves hplain hname
    rw [and_iff_right hchecked]
    exact (loadCrateLocked_ok_iff hadmitted hserves.swept).trans
      (prepareGeneration_image_iff hserves)
  · refine iff_of_false ?_ fun hall => hchecked hall.1
    rintro ⟨next, hload⟩
    obtain ⟨opened, prepared, hadmitted, -⟩ :=
      Registry.loadCrateLocked_eq_ok hload
    exact hchecked (checked_of_admitLoad hserves.opened hplain hadmitted).1

attribute [local instance] standardCase in
/-- Pots are loaded; not without their handle type, nor with two constructors
of one name, nor with a hook that returns a value. -/
theorem module_loads_pots :
    (∃ next, Registry.empty.loadCrateLocked (moduleHost potModule) none ⟨1, 1⟩
      moduleLoad = (next, .ok "pots")) ∧
    ∀ m ∈ [undeclaredModule, doubledModule, countingModule],
      ¬∃ next, Registry.empty.loadCrateLocked (moduleHost m) none ⟨1, 1⟩
        moduleLoad = (next, .ok "pots") := by
  have hiff := fun (m : ModuleDecl asciiCase)
      (hplain : ∀ e ∈ m.fns, '\\' ∉ (e.lispName asciiCase).toList) hname =>
    module_loads_iff m linuxBuild plainHost .empty (moduleHost m) ⟨1, 1⟩
      "target/debug/libpots.so" "target/debug/libpots.so" none none
      (moduleHost_serves _) hplain hname
  constructor
  · refine (hiff potModule (by decide) (by decide)).mpr ⟨?_, ?_, ?_⟩
    · exact ⟨by decide, by decide, nofun⟩
    · have hpot : potDecl ∈ potModule.handles := .head _
      exact List.forall_mem_cons.mpr ⟨wraps_potNew hpot,
        List.forall_mem_singleton.mpr (wraps_potLevel hpot)⟩
    · rintro h - sym -
      rfl
  · simp only [List.forall_mem_cons]
    refine ⟨fun hload => ?_, fun hload => ?_, fun hload => ?_, nofun⟩
    · have hwraps := ((hiff undeclaredModule (by decide) (by decide)).mp
        hload).2.1
      obtain ⟨h, hh, -⟩ := (hwraps potNew (.head _)).result "Pot" rfl
      cases hh
    · have hchecked := ((hiff doubledModule (by decide) (by decide)).mp
        hload).1
      exact absurd hchecked.lispNames (by decide)
    · have hchecked := ((hiff countingModule (by decide) (by decide)).mp
        hload).1
      exact absurd (hchecked.onDumpUnit "count" rfl potCount (.head _) rfl)
        (by decide)

end Load

/-! ## What the names reach -/

/-- A function object that calls the export, in the load's own library. -/
structure ModuleDecl.Carries [LispCase]
    {case : CaseMapping} (m : ModuleDecl case)
    (host : LoadHost) (library : Library) (crate : Crate) (e : Export)
    (w : CrateWrapper) : Prop where
  owner : w.crate = crate.name
  generation : w.ctx.generation = crate.generation + 1
  entry : w.fnPtr = { library, symbol := m.pfx ++ e.symbol case }
  lastError : w.ctx.lastErrorPtr = { library, symbol := m.pfx ++ "last_error" }
  dealloc : w.ctx.deallocPtr = { library, symbol := m.pfx ++ "dealloc" }
  frees : w.ctx.freeTable = m.handleMetas.map fun h =>
    (h.rustName, { library, symbol := m.pfx ++ h.freeSymbol })
  params : HaveForms (classNameFor (m.handleMetas.map HandleMeta.spec)
    (host.intern crate.package)) e.params w.form.params
  result : e.result.HasForm (classNameFor (m.handleMetas.map HandleMeta.spec)
    (host.intern crate.package)) w.form.result

/-- The export's Lisp name is bound to its function. -/
def ModuleDecl.Binds [LispCase] {case : CaseMapping} (m : ModuleDecl case)
    (host : LoadHost) (library : Library) (crate : Crate) (next : Registry)
    (e : Export) : Prop :=
  ∃ sym w, host.intern crate.package (stringUpcase (e.lispName case)) =
      .ok sym ∧
    next.functions sym = some (.wrapper w) ∧
    m.Carries host library crate e w

section Names

variable {case : CaseMapping} {m : ModuleDecl case} {build : RuntimeBuild}
  {readHost : ReadHost} {host : LoadHost} {library : Library}
  {registry : Registry} {crate : Crate} {prepared : Prepared}

theorem collect_prepareFree {handles : List HandleSpec} {pfx : String}
    {image : LibraryImage} {table : List (String × ForeignPtr)}
    (htable : collect (prepareFree (image.resolve library pfx crate.name))
      handles = .ok table) :
    table = handles.map fun h =>
      (h.rustName, { library, symbol := pfx ++ h.free }) := by
  have hpairs := collect_eq_ok htable
  clear htable
  induction hpairs with
  | nil => rfl
  | @cons h entry handles table hfirst _ ih =>
      obtain ⟨hname, hresolve⟩ := prepareFree_eq_ok hfirst
      rw [List.map_cons, ← ih, ← LibraryImage.resolve_eq_ok hresolve, ← hname]

/-- The functions of a generation, one for one. -/
theorem prepared_fns [LispCase]
    (hprepared : prepareGeneration host library registry crate
      (m.image readHost build) (m.manifest build) = .ok prepared) :
    List.Forall₂ (fun e (entry : Symbol × Message × CrateWrapper) =>
        host.intern crate.package (stringUpcase (e.lispName case)) =
          .ok entry.1 ∧ m.Carries host library crate e entry.2.2)
      m.fns prepared.fns := by
  obtain ⟨last, hlast, hprepared⟩ := LispResult.bind_eq_ok.mp hprepared
  obtain ⟨dealloc, hdealloc, hprepared⟩ := LispResult.bind_eq_ok.mp hprepared
  obtain ⟨dump, -, hprepared⟩ := LispResult.bind_eq_ok.mp hprepared
  obtain ⟨table, htable, hprepared⟩ := LispResult.bind_eq_ok.mp hprepared
  obtain ⟨conditions, -, hprepared⟩ := LispResult.bind_eq_ok.mp hprepared
  obtain ⟨classes, -, hprepared⟩ := LispResult.bind_eq_ok.mp hprepared
  obtain ⟨fns, hfns, hprepared⟩ := LispResult.bind_eq_ok.mp hprepared
  cases hprepared
  have hpairs := collect_eq_ok hfns
  have hspecs : (m.manifest build).functions =
      m.fns.map fun e => (genMetaConst (e.exported case)).spec := by
    rw [ModuleDecl.manifest, ModuleDecl.fnMetas, List.map_map]
    rfl
  rw [hspecs, List.forall₂_map_left_iff] at hpairs
  refine List.Forall₂.imp (fun e entry hentry => ?_) hpairs
  obtain ⟨sym, hsym, hentry⟩ := LispResult.bind_eq_ok.mp hentry
  obtain ⟨ptr, hptr, hentry⟩ := LispResult.bind_eq_ok.mp hentry
  obtain ⟨form, hform, hentry⟩ := LispResult.bind_eq_ok.mp hentry
  obtain ⟨doc, -, hentry⟩ := LispResult.bind_eq_ok.mp hentry
  obtain ⟨-, -, hentry⟩ := LispResult.bind_eq_ok.mp hentry
  cases hentry
  obtain ⟨hparams, hresult⟩ := wrapperForm_hasForms hform
  refine ⟨hsym, rfl, rfl, LibraryImage.resolve_eq_ok hptr,
    LibraryImage.resolve_eq_ok hlast, LibraryImage.resolve_eq_ok hdealloc,
    ?_, hparams, hresult⟩
  have hfrees := collect_prepareFree htable
  rw [hfrees, ModuleDecl.manifest, List.map_map]
  rfl

theorem forall₂_exists_of_mem {α β : Type} {related : α → β → Prop}
    {xs : List α} {ys : List β} (hpairs : List.Forall₂ related xs ys) {x : α}
    (hx : x ∈ xs) : ∃ y ∈ ys, related x y := by
  induction hpairs with
  | nil => cases hx
  | cons hfirst _ ih =>
      rcases List.mem_cons.mp hx with rfl | hrest
      · exact ⟨_, List.mem_cons_self, hfirst⟩
      · obtain ⟨y, hy, hrelated⟩ := ih hrest
        exact ⟨y, List.mem_cons_of_mem _ hy, hrelated⟩

/-- Symbols of distinct names are distinct. -/
theorem prepared_symbols_nodup [LispCase]
    (hpairs : List.Forall₂ (fun e (entry : Symbol × Message × CrateWrapper) =>
        host.intern crate.package (stringUpcase (e.lispName case)) =
          .ok entry.1 ∧ m.Carries host library crate e entry.2.2)
      m.fns prepared.fns)
    (hdistinct : (m.fns.map fun e => stringUpcase (e.lispName case)).Nodup) :
    (prepared.fns.map (·.1)).Nodup := by
  have hnames : (prepared.fns.map (·.1)).map Symbol.name =
      m.fns.map fun e => stringUpcase (e.lispName case) := by
    clear hdistinct
    generalize m.fns = fns, prepared.fns = entries at hpairs
    induction hpairs with
    | nil => rfl
    | cons hfirst _ ih =>
        simp only [List.map_cons, ih, LoadHost.intern_eq_ok hfirst.1]
  exact .of_map _ (hnames ▸ hdistinct)

/-- After a load, every export is bound under its Lisp name if and only if no
two of the names are the same in upper case. -/
theorem module_binds_iff [LispCase] {case : CaseMapping} (m : ModuleDecl case)
    (build : RuntimeBuild) (readHost : ReadHost) (registry next : Registry)
    (host : LoadHost) (refusal : PublicationRefusal) (library : Library)
    (args : LoadArgs) (name : String)
    (hopened : host.dlopen = .ok (m.image readHost build))
    (hplain : ∀ e ∈ m.fns, '\\' ∉ (e.lispName case).toList)
    (hload : registry.loadCrateLocked host refusal library args =
      (next, .ok name)) :
    (∀ e ∈ m.fns, m.Binds host library
        (registry.crateFor m.name args.package) next e) ↔
      (m.fns.map fun e => stringUpcase (e.lispName case)).Nodup := by
  obtain ⟨opened, prepared, hadmitted, hprepared, -, rfl⟩ :=
    Registry.loadCrateLocked_eq_ok hload
  obtain ⟨hchecked, himage, hmanifest⟩ :=
    checked_of_admitLoad hopened hplain hadmitted
  have hentry : registry.entryFor args opened =
      registry.crateFor m.name args.package := by
    rw [Registry.entryFor, hmanifest]
    rfl
  rw [himage, hmanifest, hentry] at hprepared
  have hpairs := prepared_fns hprepared
  constructor
  · intro hbinds
    refine List.Nodup.map_on ?_ (.of_map _ hchecked.lispNames)
    intro e he e' he' hsame
    obtain ⟨sym, w, hsym, hw, hcarries⟩ := hbinds e he
    obtain ⟨sym', w', hsym', hw', hcarries'⟩ := hbinds e' he'
    rw [← hsame, hsym] at hsym'
    cases hsym'
    rw [hw] at hw'
    cases hw'
    have hentry := hcarries.entry.symm.trans hcarries'.entry
    have hsymbol : e.symbol case = e'.symbol case :=
      String.append_right_inj m.pfx |>.mp (congrArg ForeignPtr.symbol hentry)
    exact m.symbols e he e' he' hsymbol
  · intro hdistinct e he
    obtain ⟨entry, hmem, hsym, hcarries⟩ := forall₂_exists_of_mem hpairs he
    refine ⟨entry.1, entry.2.2, hsym, ?_, hcarries⟩
    exact Registry.functions_published_of_mem _ _ _
      (prepared_symbols_nodup hpairs hdistinct) hmem

attribute [local instance] standardCase in
/-- `MAKE-POT` is bound twice in one load, and what reaches the first
constructor is lost. -/
theorem module_binds_shadowed :
    ∃ next, Registry.empty.loadCrateLocked (moduleHost shadowedModule) none
        ⟨1, 1⟩ moduleLoad = (next, .ok "pots") ∧
      ¬∀ e ∈ shadowedModule.fns, shadowedModule.Binds
        (moduleHost shadowedModule) ⟨1, 1⟩ (makeCrate "pots" "POTS") next
        e := by
  have hadmitted := @admitLoad_image _ shadowedModule linuxBuild plainHost
    (moduleHost shadowedModule) "target/debug/libpots.so"
    "target/debug/libpots.so" none none ⟨by decide, by decide, nofun⟩
    (moduleHost_serves _) (by decide) (by decide)
  have hpot : potDecl ∈ shadowedModule.handles := .head _
  have hfilled : shadowedModule.Wraps potFilled :=
    ⟨by decide, (wraps_potNew hpot).params, declares_pot hpot⟩
  obtain ⟨next, hload⟩ := (@loadCrateLocked_ok_iff (moduleHost shadowedModule)
    _ .empty ⟨1, 1⟩ moduleLoad _ hadmitted rfl).mpr
      ((prepareGeneration_image_iff (moduleHost_serves _)).mpr
        ⟨List.forall_mem_cons.mpr ⟨wraps_potNew hpot,
          List.forall_mem_singleton.mpr hfilled⟩, fun _ _ _ _ => rfl⟩)
  refine ⟨next, hload, ?_⟩
  intro hbinds
  have hdistinct := (module_binds_iff shadowedModule linuxBuild plainHost .empty
    next (moduleHost shadowedModule) none ⟨1, 1⟩ moduleLoad "pots" rfl
    (by decide) hload).mp hbinds
  exact absurd hdistinct (by decide)

end Names

end Rulisp
