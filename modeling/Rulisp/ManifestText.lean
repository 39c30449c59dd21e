import Rulisp.ExportMeta
import Rulisp.LispReader

/-!
# The manifest as text

What a crate's macros declare, the names they derive for it, the string that
`render_manifest` makes of the metadata, and `parse-manifest` from a string
on.
-/

namespace Rulisp

open LispReader

/-! ## Names -/

/-- The characters of identifiers, with `r#`, and of package names, versions
and target triples. -/
def isNameChar (c : Char) : Bool :=
  c.isAlphanum || c = '_' || c = '#' || c = '-' || c = '.' || c = '+' ||
    128 ≤ c.toNat

def IsName (text : String) : Prop := text.toList.all isNameChar = true

instance (text : String) : Decidable (IsName text) :=
  inferInstanceAs (Decidable (_ = _))

/-- `char::is_uppercase` and `char::to_lowercase`. -/
structure CaseMapping where
  isUppercase : Char → Bool
  toLowercase : Char → List Char
  lowerName : ∀ c, isNameChar c = true → (toLowercase c).all isNameChar = true

/-- `char::is_whitespace`. -/
def isRustWhitespace (c : Char) : Bool :=
  (9 ≤ c.toNat && c.toNat ≤ 13) || c.toNat = 0x20 || c.toNat = 0x85 ||
    c.toNat = 0xA0 || c.toNat = 0x1680 ||
    (0x2000 ≤ c.toNat && c.toNat ≤ 0x200A) || c.toNat = 0x2028 ||
    c.toNat = 0x2029 || c.toNat = 0x202F || c.toNat = 0x205F ||
    c.toNat = 0x3000

/-- The `bad` of an explicit constructor name. -/
def constructorNameBad (v : String) : Bool :=
  v = "" || v.toList.any fun c =>
    isRustWhitespace c || c = ':' || c = '"' || c = '(' || c = ')' ||
      c = '|' || c = '#' || c = ';' || c = '\''

section Names

variable (case : CaseMapping)

def camelToSnakeFrom : Bool → List Char → List Char
  | _, [] => []
  | first, ch :: rest =>
      let tail := camelToSnakeFrom false rest
      if case.isUppercase ch then
        (if first then [] else ['_']) ++ case.toLowercase ch ++ tail
      else ch :: tail

def camelToSnake (s : String) : String :=
  .ofList (camelToSnakeFrom case true s.toList)

end Names

def snakeToKebab (s : String) : String :=
  .ofList (s.toList.map fun c => if c = '_' then '-' else c)

/-! ## Declarations -/

def PTy.handleName : PTy → Option String
  | .handleRef rustName => some rustName
  | _ => none

def RTy.handleName : RTy → Option String
  | .handle rustName => some rustName
  | _ => none

inductive ExportKind
  | free
  | method (selfTy : String)
  | constructor (selfTy : String) (name : Option String)
  deriving DecidableEq, Repr

def ExportKind.selfTy : ExportKind → Option String
  | .free => none
  | .method selfTy | .constructor selfTy _ => some selfTy

/-- The explicit name of a constructor. -/
def ExportKind.explicitName : ExportKind → Option String
  | .constructor _ name => name
  | _ => none

/-- An exported function that the macros accept. -/
structure Export where
  doc : Option String
  name : String
  kind : ExportKind
  params : List (String × PTy)
  result : RTy
  error : Option String
  isName : IsName name
  selfTy : ∀ selfTy ∈ kind.selfTy, IsName selfTy
  explicitName : ∀ v ∈ kind.explicitName, constructorNameBad v = false
  paramNames : ∀ p ∈ params, IsName p.1
  paramHandles : ∀ p ∈ params, ∀ rustName ∈ p.2.handleName, IsName rustName
  resultHandle : ∀ rustName ∈ result.handleName, IsName rustName
  errorName : ∀ e ∈ error, IsName e

/-- A type with `#[rulisp::handle]`. -/
structure HandleDecl where
  doc : Option String
  name : String
  isName : IsName name

section Declarations

variable (case : CaseMapping)

def Export.lispName (e : Export) : String :=
  match e.kind with
  | .free => snakeToKebab e.name
  | .method selfTy =>
      snakeToKebab (camelToSnake case selfTy) ++ "-" ++ snakeToKebab e.name
  | .constructor _ (some v) => v
  | .constructor selfTy none =>
      "make-" ++ snakeToKebab (camelToSnake case selfTy)

def Export.symbol (e : Export) : String :=
  match e.kind with
  | .free => e.name
  | .method selfTy | .constructor selfTy _ =>
      camelToSnake case selfTy ++ "_" ++ e.name

/-- The `ExportedFn` of `export_free_fn` and `export_impl`. -/
def Export.exported (e : Export) : ExportedFn where
  doc := e.doc
  rustName :=
    match e.kind with
    | .free => e.name
    | .method selfTy | .constructor selfTy _ => selfTy ++ "::" ++ e.name
  lispName := e.lispName case
  symbol := e.symbol case
  params := e.params
  result := e.result
  error := e.error
  call :=
    match e.kind with
    | .free => .free e.name
    | .method _ => .method e.name
    | .constructor selfTy _ => .ctor selfTy e.name

/-- `__RULISP_HANDLE_META`. -/
def HandleDecl.meta (h : HandleDecl) : HandleMeta where
  doc := h.doc
  rustName := h.name
  lispName := snakeToKebab (camelToSnake case h.name)
  freeSymbol := camelToSnake case h.name ++ "_free"

/-- What one invocation of `module!` registers in a crate that compiles and
links: entries of one symbol are the same export, and the hook is a free
function of `fns` without parameters. -/
structure ModuleDecl where
  name : String
  version : String
  handles : List HandleDecl
  fns : List Export
  onDump : Option String
  isName : IsName name
  isVersion : IsName version
  symbols : ∀ e ∈ fns, ∀ e' ∈ fns, e.symbol case = e'.symbol case → e = e'
  onDumpFn : ∀ sym ∈ onDump, ∃ e ∈ fns, e.kind = .free ∧ e.name = sym ∧
    e.params = []

variable {case} in
/-- What the loader asks of a manifest and the macros do not see to. -/
structure ModuleDecl.Checked (m : ModuleDecl case) : Prop where
  lispNames : (m.fns.map (Export.lispName case)).Nodup
  handleNames : (m.handles.map fun h => (h.meta case).lispName).Nodup
  onDumpUnit : ∀ sym ∈ m.onDump, ∀ e ∈ m.fns, e.symbol case = sym →
    e.result = .unit

/-- A module of distinct Lisp names, whose hook returns nothing. -/
structure CheckedModule extends ModuleDecl case where
  checked : toModuleDecl.Checked

end Declarations

/-! ## Rendering -/

def renderTy : ParamTy → String
  | .scalar tok => tok.text
  | .str => ":string"
  | .bytes => ":bytes"
  | .handle n => "(:handle \"" ++ n ++ "\")"
  | .callback params =>
      "(:callback :params (" ++ join " " (params.map Token.text) ++
        ") :result " ++ ":unit" ++ ")"
  | .storedCallback params =>
      "(:stored-callback :params (" ++ join " " (params.map Token.text) ++
        ") :result " ++ ":unit" ++ ")"
  | .option inner => "(:option " ++ renderTy inner ++ ")"
  | .vec tok => "(:vec " ++ tok.text ++ ")"

def renderParam (p : ParamMeta) : String :=
  "(:name \"" ++ p.name ++ "\" :type " ++ renderTy p.ty ++ ")"

def renderResult : ResultTy → String
  | .unit => ":unit"
  | .scalar tok => tok.text
  | .str => ":string"
  | .bytes => ":bytes"
  | .handle n => "(:handle \"" ++ n ++ "\")"
  | .option inner => "(:option " ++ renderResult inner ++ ")"
  | .vec tok => "(:vec " ++ tok.text ++ ")"

def renderError : Option String → String
  | none => "nil"
  | some name => "\"" ++ name ++ "\""

/-- `push_escaped`. -/
def pushEscaped (text : String) : String :=
  "\"" ++ .ofList (escape text.toList) ++ "\""

def renderDoc : Option String → String
  | none => ""
  | some doc => "\n   :doc " ++ pushEscaped doc

def renderFn (f : FnMeta) : String :=
  let width := 100
  let params := f.params.map renderParam
  let paramsInline := join " " params
  let tail := ":result " ++ renderResult f.result ++ " :error " ++
    renderError f.error ++ renderDoc f.doc ++ ")"
  let oneLine := "   :params (" ++ paramsInline ++ ") " ++ tail
  let paramsLine := "   :params (" ++ paramsInline ++ ")"
  "(:fn :rust-name \"" ++ f.rustName ++ "\" :lisp-name \"" ++ f.lispName ++
    "\" :symbol \"" ++ f.symbol ++ "\"\n" ++
    (if oneLine.utf8ByteSize ≤ width then oneLine
    else
      (if paramsLine.utf8ByteSize ≤ width then paramsLine
      else "   :params (" ++ join "\n            " params ++ ")") ++
        "\n   " ++ tail)

def renderHandle (h : HandleMeta) : String :=
  "(:handle :rust-name \"" ++ h.rustName ++ "\" :lisp-name \"" ++ h.lispName ++
    "\" :free \"" ++ h.freeSymbol ++ "\"" ++ renderDoc h.doc ++ ")"

/-- Note the error type of a function that `:errors` does not list yet. -/
def noteError (seen : List String) (f : FnMeta) : List String :=
  match f.error with
  | some e => if e ≠ "Error" ∧ e ∉ seen then seen ++ [e] else seen
  | none => seen

def seenErrors (fns : List FnMeta) : List String := fns.foldl noteError []

/-- The constants of a build of the runtime: `RULISP_VERSION` and `TARGET`. -/
structure RuntimeBuild where
  rulispVersion : String
  target : String
  isVersion : IsName rulispVersion
  isTarget : IsName target

def renderOnDump : Option String → String
  | none => ""
  | some sym => "\n :on-dump \"" ++ sym ++ "\""

def renderManifest (build : RuntimeBuild) (crateName crateVersion pfx : String)
    (onDump : Option String) (handles : List HandleMeta)
    (fns : List FnMeta) : String :=
  "(:rulisp-manifest\n :schema 1\n :abi " ++ "1" ++ "\n :crate \"" ++
    crateName ++ "\"\n :crate-version \"" ++ crateVersion ++
    "\"\n :rulisp-version \"" ++ build.rulispVersion ++ "\"\n :target \"" ++
    build.target ++ "\"\n :prefix \"" ++ pfx ++ "\"" ++ renderOnDump onDump ++
    "\n :errors (" ++
    join " " ((seenErrors fns).map fun e => "\"" ++ e ++ "\"") ++
    ")\n :handles\n (" ++ join "\n  " (handles.map renderHandle) ++
    ")\n :functions\n (" ++ join "\n  " (fns.map renderFn) ++ "))\n"

section Module

variable {case : CaseMapping} (m : ModuleDecl case)

/-- `crate_prefix`. -/
def ModuleDecl.pfx : String :=
  .ofList (m.name.toList.map fun c => if c = '-' then '_' else c) ++ "_rulisp_"

def ModuleDecl.handleMetas : List HandleMeta :=
  m.handles.map (HandleDecl.meta case)

def ModuleDecl.fnMetas : List FnMeta :=
  m.fns.map fun e => genMetaConst (e.exported case)

/-- `__rulisp_manifest_str`. -/
def ModuleDecl.manifestStr (build : RuntimeBuild) : String :=
  renderManifest build m.name m.version m.pfx m.onDump m.handleMetas m.fnMetas

/-- The manifest that the declarations mean. -/
def ModuleDecl.manifest (build : RuntimeBuild) : Manifest where
  schema := 1
  abi := 1
  crate := m.name
  crateVersion := some m.version
  target := some build.target
  pfx := m.pfx
  errors := .ofList ((seenErrors m.fnMetas).map .string)
  handles := m.handleMetas.map HandleMeta.spec
  functions := m.fnMetas.map FnMeta.spec
  onDump := m.onDump
  rulispVersion := some build.rulispVersion

end Module

/-! ## Reading -/

/-- `%safe-read`. -/
def safeRead (host : ReadHost) (text : String) : LispResult LispObject :=
  match readFromString host text with
  | .ok object => .ok object
  | .error e => manifestError [.text ("unreadable manifest: " ++ e)]

/-- `%sanitize`. -/
def sanitize : LispObject → LispResult Datum
  | .null => .ok .nil
  | .cons car cdr => do
      let car ← sanitize car
      let cdr ← sanitize cdr
      return .cons car cdr
  | .keyword name => .ok (.keyword name)
  | .symbol name =>
      if name = "NIL" then .ok .nil
      else
        manifestError [.text ("unexpected symbol " ++ name ++ " in manifest")]
  | .string value => .ok (.string value)
  | .integer value => .ok (.integer value)
  | .other printed =>
      manifestError [.text ("unexpected object " ++ printed ++ " in manifest")]

/-- `parse-manifest`. -/
def parseManifestString (host : ReadHost) (text : String) :
    LispResult Manifest := do
  let object ← safeRead host text
  let form ← sanitize object
  parseManifest form

/-- A host that reads nothing beyond the plain syntax. -/
def plainHost : ReadHost where
  dispatch := fun _ _ => .error "dispatching macro character"
  token := fun _ => .error "token"

end Rulisp
