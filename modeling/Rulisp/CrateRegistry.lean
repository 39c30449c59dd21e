import Rulisp.WrapperForm

/-!
# The crate registry

`crate.lisp`: what a load does to the registry, the crate objects and the
package.  A load first goes through everything that comes before the entry
in `*crates*`, then enters the crate, prepares a generation, sets the crate's
slots and publishes the bindings.  Publication is a list of single
operations, since other threads see the ones done so far and since the host
may refuse any of them.
-/

namespace Rulisp

variable [LispCase]

/-! ## Libraries -/

/-- One mapped copy of an artifact: the copy counter of its load and the
session that opened it. -/
structure Library where
  serial : ℕ
  session : ℕ
  deriving DecidableEq, Repr

/-- What `dlsym-ptr` resolves. -/
structure ForeignPtr where
  library : Library
  symbol : String
  deriving DecidableEq, Repr

/-- What a mapped artifact exports and answers.  `form` is what `%safe-read`
and `%sanitize` make of its manifest text `raw`. -/
structure LibraryImage where
  exports : List String
  abiVersion : ℤ
  raw : String
  form : LispResult Datum

/-- What the host answers to one load. -/
structure LoadHost where
  directoryExists : Bool
  probedFile : Option String
  shapeRefusal : Option Message
  copyRefusal : Option HostError
  copyName : String
  dlopen : Except Message LibraryImage
  targetCompatible : String → Bool
  hostDescription : String
  /-- The home package of the symbol that `intern` finds or makes. -/
  home : String → String → LispResult String
  compileRefusal : FnSpec → Option HostError
  sweepRefusal : Option HostError

def LoadHost.intern (host : LoadHost) (package name : String) :
    LispResult Symbol := do
  return { home := ← host.home package name, name := name }

/-! ## Generations -/

/-- `gen-ctx`. -/
structure GenCtx where
  generation : ℕ
  session : ℕ
  lastErrorPtr : ForeignPtr
  deallocPtr : ForeignPtr
  freeTable : List (String × ForeignPtr)
  errorConditions : List (String × Symbol)
  deriving DecidableEq, Repr

/-- A generated function: the closure over its crate, its context and its
entry point. -/
structure CrateWrapper where
  crate : String
  ctx : GenCtx
  fnPtr : ForeignPtr
  form : WrapperForm
  deriving DecidableEq, Repr

inductive LispFunction
  | wrapper (wrapper : CrateWrapper)
  /-- A function of `%stub-crate`: "reload failed on image restore: ~A". -/
  | stub (crate : String) (reason : LoadCondition)
  /-- A definition that no crate made. -/
  | foreign (id : ℕ)
  deriving DecidableEq, Repr

inductive LispClass
  | handleClass (doc : Message)
  | conditionClass
  | foreign (id : ℕ)
  deriving DecidableEq, Repr

structure Crate where
  name : String
  package : String
  generation : ℕ
  libHandle : Option Library
  pfx : Option String
  manifest : Option Manifest
  manifestSource : Option String
  sourcePath : Option String
  cachePath : Option String
  lastErrorPtr : Option ForeignPtr
  deallocPtr : Option ForeignPtr
  symbols : List Symbol
  handleFrees : List (String × ForeignPtr)
  onDumpPtr : Option ForeignPtr
  stubReason : Option LoadCondition
  deriving DecidableEq, Repr

/-- `(make-instance 'crate :name name :package package)`. -/
def makeCrate (name package : String) : Crate where
  name := name
  package := package
  generation := 0
  libHandle := none
  pfx := none
  manifest := none
  manifestSource := none
  sourcePath := none
  cachePath := none
  lastErrorPtr := none
  deallocPtr := none
  symbols := []
  handleFrees := []
  onDumpPtr := none
  stubReason := none

/-- `*crates*`, `*crate-load-order*` and what the packages hold. -/
structure Registry where
  crates : String → Option Crate
  crateLoadOrder : List String
  functions : Symbol → Option LispFunction
  functionDocs : Symbol → Option Message
  classes : Symbol → Option LispClass
  /-- The `%rulisp-class-owner` property. -/
  classOwner : Symbol → Option String
  exported : String → Symbol → Bool

def Registry.empty : Registry where
  crates := fun _ => none
  crateLoadOrder := []
  functions := fun _ => none
  functionDocs := fun _ => none
  classes := fun _ => none
  classOwner := fun _ => none
  exported := fun _ _ => false

/-- The crate object registered as `name` now has the slots of `crate`. -/
def Registry.setCrate (registry : Registry) (name : String) (crate : Crate) :
    Registry :=
  { registry with
    crates := Function.update registry.crates name (some crate) }

/-! ## Before the registry is touched -/

/-- `(substitute #\_ #\- s)`. -/
def underscored (s : String) : String :=
  String.ofList (s.toList.map fun ch => if ch = '-' then '_' else ch)

/-- The argument list of `%load-crate-locked`; only the reload of a crate
that never committed has no path.  `package` is the name of a package
designator: what `ensure-crate-package` signals of anything else, with the
crate's name already in `*crate-load-order*`, is left out. -/
structure LoadArgs where
  path : Option String
  crateArg : Option String
  package : Option String
  deriving DecidableEq, Repr

/-- `derive-crate-name`, of the artifact's file name without its type. -/
def deriveCrateName (base : String) : String :=
  match base.toList with
  | 'l' :: 'i' :: 'b' :: ch :: rest => String.ofList (ch :: rest)
  | _ => base

/-- `pathname-name`. -/
def pathnameName (path : String) : String :=
  let file := (path.toList.reverse.takeWhile (· ≠ '/')).reverse
  let withoutType := (file.reverse.dropWhile (· ≠ '.')).drop 1 |>.reverse
  String.ofList (if withoutType = [] then file else withoutType)

def abiVersion : ℤ := 1

/-- `dlsym-ptr` with the error for a missing symbol. -/
def LibraryImage.resolve (image : LibraryImage) (library : Library)
    (pfx crateName short : String) : LispResult ForeignPtr :=
  if (pfx ++ short) ∈ image.exports then
    .ok { library := library, symbol := pfx ++ short }
  else
    manifestError
      [.text ("symbol " ++ pfx ++ short ++ " not found in crate " ++ crateName)]

def LoadHost.checkTarget (host : LoadHost) : Option String → LispResult Unit
  | none => .ok ()
  | some target =>
      errorUnless (host.targetCompatible target = true)
        (.abiMismatch (.string host.hostDescription) (.string target)
          (some [.text "artifact was built for a different target"]))

/-- `%open-and-verify`. -/
def openAndVerify (host : LoadHost) (displayName pfx origin : String) :
    LispResult (LibraryImage × Manifest) := do
  let image ← host.dlopen.mapError (.crateNotLoaded origin)
  errorUnless ((pfx ++ "abi_version") ∈ image.exports)
    (.abiMismatch (.integer abiVersion) .nil
      (some [.text (displayName ++ " is not a rulisp crate (no " ++ pfx ++
        "abi_version) — if the artifact was renamed, pass :crate with the crate's name")]))
  errorUnless (image.abiVersion = abiVersion)
    (.abiMismatch (.integer abiVersion) (.integer image.abiVersion) none)
  errorUnless ((pfx ++ "manifest") ∈ image.exports)
    (.manifestError [.text ("no " ++ pfx ++ "manifest symbol")])
  let manifest ← parseManifest (← image.form)
  errorUnless (manifest.abi = image.abiVersion)
    (.abiMismatch (.integer image.abiVersion) (.integer manifest.abi)
      (some [.text "manifest :abi disagrees with abi_version()"]))
  host.checkTarget manifest.target
  return (image, manifest)

/-- An artifact that is open and verified. -/
structure Opened where
  path : String
  image : LibraryImage
  manifest : Manifest

/-- `(probe-file path)`; NIL is no pathname. -/
def LoadHost.probe (host : LoadHost) : Option String → LispResult String
  | none => hostError .typeError
  | some argument =>
      match host.probedFile with
      | some path => .ok path
      | none =>
          .error
            (.crateNotLoaded argument [.text "artifact does not exist"])

/-- `%check-artifact-shape`. -/
def LoadHost.checkArtifactShape (host : LoadHost) (path : String) :
    LispResult Unit :=
  match host.shapeRefusal with
  | some message => .error (.crateNotLoaded path message)
  | none => .ok ()

def checkCrateName (canonical : String) : Option String → LispResult Unit
  | none => .ok ()
  | some name =>
      errorUnless (underscored canonical = underscored name)
        (.manifestError [.text "manifest says crate ",
          .printed (.string canonical), .text ", expected ",
          .printed (.string name)])

/-- The copy that is about to be opened. -/
structure CopiedArtifact where
  path : String
  provisional : String
  deriving DecidableEq, Repr

/-- `%load-crate-locked` up to the copy of the artifact. -/
def copyArtifact (host : LoadHost) (args : LoadArgs) :
    LispResult CopiedArtifact := do
  let argument := args.path.getD ""
  errorUnless (host.directoryExists = false)
    (.crateNotLoaded argument
      [.text (argument ++ " is a directory — load-crate takes a built artifact (lib<name>.so/.dylib/.dll); use-crate builds a crate directory")])
  let path ← host.probe args.path
  let provisional := underscored
    (args.crateArg.getD (deriveCrateName (pathnameName path)))
  host.checkArtifactShape path
  hostStep host.copyRefusal
  return { path, provisional }

def CopiedArtifact.prefixGuess (copied : CopiedArtifact) : String :=
  copied.provisional ++ "_rulisp_"

/-- `%load-crate-locked` up to the registration of the crate. -/
def admitLoad (host : LoadHost) (args : LoadArgs) : LispResult Opened := do
  let copied ← copyArtifact host args
  let (image, manifest) ←
    openAndVerify host copied.provisional copied.prefixGuess copied.path
  checkCrateName manifest.crate args.crateArg
  return { path := copied.path, image, manifest }

/-! ## Registration -/

/-- `(or (gethash canonical *crates*) ...)`: the entry a load works on. -/
def Registry.crateFor (registry : Registry) (canonical : String)
    (package : Option String) : Crate :=
  (registry.crates canonical).getD
    (makeCrate canonical (package.getD (stringUpcase canonical)))

def Registry.register (registry : Registry) (canonical : String)
    (package : Option String) : Registry :=
  match registry.crates canonical with
  | some _ => registry
  | none =>
      { registry.setCrate canonical (registry.crateFor canonical package) with
        crateLoadOrder := registry.crateLoadOrder ++ [canonical] }

/-! ## Preparation -/

/-- What `prepare-bindings` returns, with the new slot values. -/
structure Prepared where
  ctx : GenCtx
  onDumpPtr : Option ForeignPtr
  classes : List (Symbol × Message)
  fns : List (Symbol × Message × CrateWrapper)
  deriving DecidableEq, Repr

/-- One handle of `prepare-bindings`: the ownership check. -/
def prepareClass (host : LoadHost) (registry : Registry) (crate : Crate)
    (h : HandleSpec) : LispResult (Symbol × Message) := do
  let classSym ← host.intern crate.package (stringUpcase h.lispName)
  let owner := (registry.classOwner classSym).getD crate.name
  errorUnless (owner = crate.name)
    (.manifestError [.text ("handle class " ++ classSym.home ++ "::" ++
      classSym.name ++ " already belongs to crate " ++ owner)])
  return (classSym, synthesizeHandleDoc crate.package h)

/-- One function of `prepare-bindings`. -/
def prepareFn (host : LoadHost) (crate : Crate) (manifest : Manifest)
    (ctx : GenCtx) (resolve : String → LispResult ForeignPtr) (f : FnSpec) :
    LispResult (Symbol × Message × CrateWrapper) := do
  let sym ← host.intern crate.package (stringUpcase f.lispName)
  let qualified :=
    stringDowncase crate.package ++ ":" ++ stringDowncase f.lispName
  let fnPtr ← resolve f.symbol
  let form ← wrapperForm
    (classNameFor manifest.handles (host.intern crate.package)) f qualified
  let doc ← synthesizeFnDoc crate.package f
  hostStep (host.compileRefusal f)
  return (sym, doc, { crate := crate.name, ctx, fnPtr, form })

def prepareOnDump (resolve : String → LispResult ForeignPtr) :
    Option String → LispResult (Option ForeignPtr)
  | none => .ok none
  | some sym => do
      return some (← resolve sym)

def prepareFree (resolve : String → LispResult ForeignPtr) (h : HandleSpec) :
    LispResult (String × ForeignPtr) := do
  return (h.rustName, ← resolve h.free)

/-- One entry of `err-conds`. -/
def prepareErrorCondition (host : LoadHost) (crate : Crate) :
    Datum → LispResult (String × Symbol)
  | .string e => do
      return (e, ← host.intern crate.package (camelToKebab e))
  | _ => hostError .typeError

/-- Phase 1 of `%commit-generation`; `library` was opened in the current
session. -/
def prepareGeneration (host : LoadHost) (library : Library)
    (registry : Registry) (crate : Crate) (image : LibraryImage)
    (manifest : Manifest) : LispResult Prepared := do
  let resolve := image.resolve library manifest.pfx crate.name
  let lastErrorPtr ← resolve "last_error"
  let deallocPtr ← resolve "dealloc"
  let onDumpPtr ← prepareOnDump resolve manifest.onDump
  let freeTable ← collect (prepareFree resolve) manifest.handles
  let errorConditions ←
    manifest.errors.mapcar (prepareErrorCondition host crate)
  let ctx : GenCtx :=
    { generation := crate.generation + 1, session := library.session,
      lastErrorPtr, deallocPtr, freeTable, errorConditions }
  let classes ← collect (prepareClass host registry crate) manifest.handles
  let fns ← collect (prepareFn host crate manifest ctx resolve)
    manifest.functions
  return { ctx, onDumpPtr, classes, fns }

/-! ## Commit -/

/-- The slots that `%commit-generation` sets. -/
def Crate.commitSlots (crate : Crate) (host : LoadHost) (library : Library)
    (opened : Opened) (prepared : Prepared) : Crate :=
  { crate with
    stubReason := none
    generation := prepared.ctx.generation
    libHandle := some library
    pfx := some opened.manifest.pfx
    manifest := some opened.manifest
    manifestSource := some opened.image.raw
    sourcePath := some opened.path
    cachePath := some host.copyName
    lastErrorPtr := some prepared.ctx.lastErrorPtr
    deallocPtr := some prepared.ctx.deallocPtr
    handleFrees := prepared.ctx.freeTable
    onDumpPtr := prepared.onDumpPtr }

/-- One operation of `commit-bindings`. -/
inductive PublishOp
  | defineCondition (sym : Symbol)
  | export (sym : Symbol)
  | markClassOwner (sym : Symbol)
  | defineClass (sym : Symbol) (doc : Message)
  | setFunction (sym : Symbol) (fn : CrateWrapper)
  | setFunctionDoc (sym : Symbol) (doc : Option Message)
  | makeUnbound (sym : Symbol)
  | setSymbols (symbols : List Symbol)
  deriving DecidableEq, Repr

/-- Set in the crate's own slots and in property lists; the other operations
are the host's and can be refused. -/
def PublishOp.internal : PublishOp → Bool
  | .markClassOwner _ => true
  | .setSymbols _ => true
  | _ => false

/-- The function that becomes visible with an operation. -/
def PublishOp.published : PublishOp → List CrateWrapper
  | .setFunction _ fn => [fn]
  | _ => []

/-- `commit-bindings` as a list; `previous` is `(crate-symbols crate)`. -/
def publication (prepared : Prepared) (previous : List Symbol) :
    List PublishOp :=
  prepared.ctx.errorConditions.flatMap (fun (_, condSym) =>
    [.defineCondition condSym, .export condSym]) ++
  prepared.classes.flatMap (fun (classSym, doc) =>
    [.markClassOwner classSym, .defineClass classSym doc, .export classSym]) ++
  prepared.fns.flatMap (fun (sym, doc, fn) =>
    [.setFunction sym fn, .setFunctionDoc sym (some doc), .export sym]) ++
  (previous.filter (· ∉ prepared.fns.map (·.1))).flatMap (fun sym =>
    [.makeUnbound sym, .setFunctionDoc sym none]) ++
  [.setSymbols (prepared.fns.map (·.1))]

def Registry.publish (registry : Registry) (name package : String) :
    PublishOp → Registry
  | .defineCondition sym =>
      { registry with
        classes := Function.update registry.classes sym (some .conditionClass) }
  | .export sym =>
      { registry with
        exported := Function.update registry.exported package
          (Function.update (registry.exported package) sym true) }
  | .markClassOwner sym =>
      { registry with
        classOwner :=
          Function.update registry.classOwner sym (some name) }
  | .defineClass sym doc =>
      { registry with
        classes :=
          Function.update registry.classes sym (some (.handleClass doc)) }
  | .setFunction sym fn =>
      { registry with
        functions :=
          Function.update registry.functions sym (some (.wrapper fn)) }
  | .setFunctionDoc sym doc =>
      { registry with
        functionDocs := Function.update registry.functionDocs sym doc }
  | .makeUnbound sym =>
      { registry with
        functions := Function.update registry.functions sym none }
  | .setSymbols symbols =>
      match registry.crates name with
      | some crate => registry.setCrate name { crate with symbols := symbols }
      | none => registry

/-- The refusal that stops a publication: how many of the host's operations
succeed before it. -/
abbrev PublicationRefusal := Option (ℕ × HostError)

def Registry.publishAll (name package : String) :
    PublicationRefusal → List PublishOp → Registry →
      Registry × Option HostError
  | _, [], registry => (registry, none)
  | refusal, op :: rest, registry =>
      if op.internal then
        publishAll name package refusal rest (registry.publish name package op)
      else
        match refusal with
        | some (0, kind) => (registry, some kind)
        | some (count + 1, kind) =>
            publishAll name package (some (count, kind)) rest
              (registry.publish name package op)
        | none =>
            publishAll name package none rest
              (registry.publish name package op)

/-! ## Loads -/

/-- A committed generation of a crate. -/
structure Generation where
  crate : String
  number : ℕ
  library : Library
  manifest : Manifest
  deriving DecidableEq, Repr

/-- A load whose slots are set, with the publication that is left. -/
structure Commit where
  generation : Generation
  package : String
  ops : List PublishOp
  deriving DecidableEq, Repr

/-- `%load-crate-locked` up to `commit-bindings`. -/
def Registry.beginLoad (registry : Registry) (host : LoadHost)
    (library : Library) (args : LoadArgs) : Registry × LispResult Commit :=
  match admitLoad host args with
  | .error e => (registry, .error e)
  | .ok opened =>
      let name := opened.manifest.crate
      let crate := registry.crateFor name args.package
      let registered := registry.register name args.package
      match prepareGeneration host library registered crate opened.image
        opened.manifest with
      | .error e => (registered, .error e)
      | .ok prepared =>
          (registered.setCrate name
              (crate.commitSlots host library opened prepared),
            .ok
              { generation :=
                  { crate := name, number := prepared.ctx.generation, library,
                    manifest := opened.manifest }
                package := crate.package
                ops := publication prepared crate.symbols })

/-- `%load-crate-locked`; the value is the name of the returned crate. -/
def Registry.loadCrateLocked (registry : Registry) (host : LoadHost)
    (refusal : PublicationRefusal) (library : Library) (args : LoadArgs) :
    Registry × LispResult String :=
  match registry.beginLoad host library args with
  | (begun, .error e) => (begun, .error e)
  | (begun, .ok commit) =>
      match Registry.publishAll commit.generation.crate commit.package refusal
        commit.ops begun with
      | (published, some kind) => (published, hostError kind)
      | (published, none) =>
          match host.sweepRefusal with
          | some kind => (published, hostError kind)
          | none => (published, .ok commit.generation.crate)

/-- The argument of `resolve-crate`: a crate object or a designator. -/
inductive CrateDesignator
  | object (name : String)
  | named (name : String)
  deriving DecidableEq, Repr

def Registry.resolveCrate (registry : Registry)
    (designator : CrateDesignator) : LispResult (String × Crate) :=
  let name :=
    match designator with
    | .object name => name
    | .named name => stringDowncase name
  match registry.crates name with
  | some crate => .ok (name, crate)
  | none => .error (.crateNotLoaded name [.text "no such crate loaded"])

/-- A call of `load-crate` or of `reload-crate`. -/
inductive LoadCall
  | load (path : String) (crate package : Option String)
  | reload (designator : CrateDesignator) (path : Option String)
  deriving DecidableEq, Repr

def LoadCall.args (registry : Registry) : LoadCall → LispResult LoadArgs
  | .load path crate package =>
      .ok { path := some path, crateArg := crate, package }
  | .reload designator path => do
      let (name, crate) ← registry.resolveCrate designator
      return { path := path <|> crate.sourcePath, crateArg := some name,
               package := none }

def LoadCall.run (call : LoadCall) (registry : Registry) (host : LoadHost)
    (refusal : PublicationRefusal) (library : Library) :
    Registry × LispResult String :=
  match call.args registry with
  | .error e => (registry, .error e)
  | .ok args => registry.loadCrateLocked host refusal library args

/-! ## Stubs -/

/-- The slots that `%stub-crate` drops. -/
def Crate.stubSlots (crate : Crate) (reason : LoadCondition) : Crate :=
  { crate with
    libHandle := none
    onDumpPtr := none
    lastErrorPtr := none
    deallocPtr := none
    handleFrees := []
    cachePath := none
    stubReason := some reason }

def Registry.stubCrate (registry : Registry) (name : String)
    (reason : LoadCondition) : Registry :=
  match registry.crates name with
  | none => registry
  | some crate =>
      { registry.setCrate name (crate.stubSlots reason) with
        functions := fun sym =>
          if sym ∈ crate.symbols then some (.stub name reason)
          else registry.functions sym }

/-! ## A crate with one handle type -/

def demoManifest : Datum :=
  .cons (.keyword "RULISP-MANIFEST") (.ofPlist
    [("SCHEMA", .integer 1), ("ABI", .integer 1),
      ("CRATE", .string "demo"), ("PREFIX", .string "demo_rulisp_"),
      ("HANDLES", .ofList
        [.cons (.keyword "HANDLE") (.ofPlist
          [("RUST-NAME", .string "Bag"), ("LISP-NAME", .string "bag"),
            ("FREE", .string "free_bag")])]),
      ("FUNCTIONS", .ofList
        [.cons (.keyword "FN") (.ofPlist
          [("RUST-NAME", .string "new"), ("LISP-NAME", .string "make-bag"),
            ("SYMBOL", .string "make_bag"), ("PARAMS", .nil),
            ("RESULT", .ofList [.keyword "HANDLE", .string "Bag"])]),
        .cons (.keyword "FN") (.ofPlist
          [("RUST-NAME", .string "len"), ("LISP-NAME", .string "bag-len"),
            ("SYMBOL", .string "bag_len"),
            ("PARAMS", .ofList [.ofPlist
              [("NAME", .string "self"),
                ("TYPE", .ofList [.keyword "HANDLE", .string "Bag"])]]),
            ("RESULT", .keyword "U64")])])])

/-- A host that finds and opens the demo artifact and refuses nothing. -/
def demoHost (exports : List String) : LoadHost where
  directoryExists := false
  probedFile := some "target/debug/libdemo.so"
  shapeRefusal := none
  copyRefusal := none
  copyName := "demo-p7-c1-0.so"
  dlopen := .ok
    { exports := exports, abiVersion := 1, raw := "", form := .ok demoManifest }
  targetCompatible := fun _ => true
  hostDescription := "x86-64 linux"
  home := fun package _ => .ok package
  compileRefusal := fun _ => none
  sweepRefusal := none

def demoExports : List String :=
  ["demo_rulisp_abi_version", "demo_rulisp_manifest",
    "demo_rulisp_last_error", "demo_rulisp_dealloc", "demo_rulisp_free_bag",
    "demo_rulisp_make_bag", "demo_rulisp_bag_len"]

def demoLoad : LoadCall := .load "target/debug/libdemo.so" none none

end Rulisp
