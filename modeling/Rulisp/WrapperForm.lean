import Rulisp.LispCase
import Rulisp.Manifest

/-!
# Wrapper forms

What `codegen.lisp` compiles a function's manifest entry into.  A wrapper is
kept as the data the form is built from: for each parameter how its argument
is checked and which foreign arguments it becomes, and for the result which
out-parameters there are and how the returned value is read.
-/

namespace Rulisp

/-- A symbol, by its home package. -/
structure Symbol where
  home : String
  name : String
  deriving DecidableEq, Repr

/-! ## Types -/

inductive CffiType
  | uint8 | int8 | int16 | int32 | int64
  | uint16 | uint32 | uint64
  | float | double
  | pointer
  | uintptr
  deriving DecidableEq, Repr

/-- `+scalar-types+`. -/
def scalarTypes : List (String × CffiType) :=
  [("BOOL", .uint8),
    ("I8", .int8), ("I16", .int16), ("I32", .int32), ("I64", .int64),
    ("U8", .uint8), ("U16", .uint16), ("U32", .uint32), ("U64", .uint64),
    ("F32", .float), ("F64", .double)]

def Datum.assocScalar : Datum → Option CffiType
  | .keyword name => scalarTypes.lookup name
  | _ => none

def scalarCffi (ty : Datum) : LispResult CffiType :=
  match ty.assocScalar with
  | some cffi => .ok cffi
  | none => manifestError [.text "unsupported type ", .printed ty]

/-- `(and (consp ty) (eq (car ty) tag))`. -/
def Datum.tagged (ty : Datum) (tag : String) : Bool :=
  match ty with
  | .cons first _ => decide (first = .keyword tag)
  | _ => false

def Datum.handleTypeP (ty : Datum) : Bool := ty.tagged "HANDLE"
def Datum.callbackTypeP (ty : Datum) : Bool := ty.tagged "CALLBACK"
def Datum.storedCallbackTypeP (ty : Datum) : Bool := ty.tagged "STORED-CALLBACK"
def Datum.optionTypeP (ty : Datum) : Bool := ty.tagged "OPTION"
def Datum.vecTypeP (ty : Datum) : Bool := ty.tagged "VEC"

/-- The value of an absent optional scalar's slot. -/
inductive Placeholder
  | zero
  | singleZero
  | doubleZero
  deriving DecidableEq, Repr

def scalarPlaceholder (ty : Datum) : Placeholder :=
  if ty = .keyword "F64" then .doubleZero
  else if ty = .keyword "F32" then .singleZero
  else .zero

def optionInner (ty : Datum) : LispResult Datum := do
  let inner ← ty.second
  errorUnless (inner ≠ .keyword "BOOL")
    (.manifestError [.text "(:option :bool) is not in the type vocabulary — nil is ambiguous between None and false; use (:option :i8)"])
  return inner

/-- The element types of specialized vectors. -/
inductive LispEltType
  | signedByte (bits : ℕ)
  | unsignedByte (bits : ℕ)
  | singleFloat
  | doubleFloat
  deriving DecidableEq, Repr

inductive Coercer
  | identity
  | toSingleFloat
  | toDoubleFloat
  deriving DecidableEq, Repr

structure VecEltInfo where
  cffi : CffiType
  size : ℕ
  lispType : LispEltType
  coercer : Coercer
  deriving DecidableEq, Repr

/-- `+vec-elt-types+`. -/
def vecEltTypes : List (String × VecEltInfo) :=
  [("I8", ⟨.int8, 1, .signedByte 8, .identity⟩),
    ("I16", ⟨.int16, 2, .signedByte 16, .identity⟩),
    ("I32", ⟨.int32, 4, .signedByte 32, .identity⟩),
    ("I64", ⟨.int64, 8, .signedByte 64, .identity⟩),
    ("U8", ⟨.uint8, 1, .unsignedByte 8, .identity⟩),
    ("U16", ⟨.uint16, 2, .unsignedByte 16, .identity⟩),
    ("U32", ⟨.uint32, 4, .unsignedByte 32, .identity⟩),
    ("U64", ⟨.uint64, 8, .unsignedByte 64, .identity⟩),
    ("F32", ⟨.float, 4, .singleFloat, .toSingleFloat⟩),
    ("F64", ⟨.double, 8, .doubleFloat, .toDoubleFloat⟩)]

def vecEltInfo (tok : Datum) : LispResult VecEltInfo :=
  let entry :=
    match tok with
    | .keyword name => vecEltTypes.lookup name
    | _ => none
  match entry with
  | some info => .ok info
  | none =>
      manifestError [.text "unsupported (:vec ", .printed tok,
        .text ") element type"]

/-! ## Callback trampolines -/

def Datum.isSymbol : Datum → Bool
  | .nil => true
  | .keyword _ => true
  | _ => false

def Datum.indicators : Datum → List Datum
  | .cons indicator (.cons _ rest) => indicator :: rest.indicators
  | _ => []

/-- `(destructuring-bind (&key params result) args ...)`. -/
def destructureCallback (args : Datum) : LispResult (Datum × Datum) :=
  let known : List Datum :=
    [.keyword "PARAMS", .keyword "RESULT", .keyword "ALLOW-OTHER-KEYS"]
  let keysOk :=
    if args.lookup "ALLOW-OTHER-KEYS" = .nil then
      args.indicators.all (known.contains ·)
    else
      args.indicators.all Datum.isSymbol
  if args.properPlist && keysOk then
    .ok (args.lookup "PARAMS", args.lookup "RESULT")
  else
    hostError .programError

/-- `%check-callback-shape`. -/
def checkCallbackShape (cbType : Datum) : LispResult (Datum × Datum) := do
  let (params, result) ← destructureCallback (← cbType.cdr)
  errorUnless (result = .keyword "UNIT")
    (.manifestError [.text "callbacks must have :result :unit"])
  params.dolist fun p =>
    errorUnless (p = .keyword "STRING" ∨ p.assocScalar ≠ none)
      (.manifestError
        [.text "unsupported callback param type ", .printed p])
  return (params, result)

inductive TrampolineKind
  | borrowed
  | stored
  deriving DecidableEq, Repr

/-- A key of `*trampolines*`: each names one `cffi:defcallback`. -/
structure Trampoline where
  kind : TrampolineKind
  params : Datum
  result : Datum
  deriving DecidableEq, Repr

def ensureTrampoline (kind : TrampolineKind) (cbType : Datum) :
    LispResult Trampoline := do
  let (params, result) ← checkCallbackShape cbType
  return { kind, params, result }

/-! ## Parameters and results -/

variable [LispCase]

/-- How one parameter of a wrapper is checked and passed. -/
inductive ParamForm
  | string
  | bytes
  | optionString
  | optionBytes
  | optionScalar (cffi : CffiType) (placeholder : Placeholder)
  | vec (elt : VecEltInfo)
  /-- The type gate's class; `rustName` is the manifest's token. -/
  | handle (rustName : Datum) (cls : Symbol)
  | callback (trampoline : Trampoline)
  | storedCallback (trampoline : Trampoline)
  | scalar (cffi : CffiType) (isBool : Bool)
  deriving DecidableEq, Repr

inductive ResultForm
  | unit
  | string
  | bytes
  | handle (rustName : Datum) (cls : Symbol)
  | bool
  | optionString
  | optionBytes
  | optionScalar (cffi : CffiType)
  | vec (elt : VecEltInfo)
  | scalar (cffi : CffiType)
  deriving DecidableEq, Repr

/-- The string that `string=` compares; only symbols and strings have one. -/
def Datum.stringDesignator : Datum → Option String
  | .nil => some "NIL"
  | .keyword name => some name
  | .string value => some value
  | _ => none

/-- The `class-name-for` of `prepare-bindings`; `intern` is that of the
crate's package. -/
def classNameFor (handles : List HandleSpec)
    (intern : String → LispResult Symbol)
    (rustName : Datum) : LispResult Symbol :=
  match handles, rustName.stringDesignator with
  | [], _ =>
      manifestError [.text "unknown handle type ", .printed rustName]
  | _, none => hostError .typeError
  | handles, some name =>
      match handles.find? (fun h => h.rustName == name) with
      | some h => intern (stringUpcase h.lispName)
      | none => manifestError [.text "unknown handle type ", .printed rustName]

/-- The class a handle token resolves to is interned for one of the
manifest's handles. -/
theorem classNameFor_eq_ok {handles : List HandleSpec}
    {intern : String → LispResult Symbol} {token : Datum} {cls : Symbol}
    (hclass : classNameFor handles intern token = .ok cls) :
    ∃ h ∈ handles, token.stringDesignator = some h.rustName ∧
      intern (stringUpcase h.lispName) = .ok cls := by
  unfold classNameFor at hclass
  split at hclass
  · cases hclass
  · cases hclass
  · rename_i name _ hname
    split at hclass
    · rename_i h hfind
      have hfound := List.find?_some hfind
      simp only [beq_iff_eq] at hfound
      refine ⟨h, List.mem_of_find?_eq_some hfind, ?_, hclass⟩
      rw [hname, hfound]
    · cases hclass

section WrapperForm

variable (classOf : Datum → LispResult Symbol)

/-- One turn of `wrapper-form`'s loop over the parameters. -/
def paramForm (ty : Datum) : LispResult ParamForm := do
  if ty = .keyword "STRING" then return .string
  else if ty = .keyword "BYTES" then return .bytes
  else if ty.optionTypeP then
    let inner ← optionInner ty
    if inner = .keyword "STRING" then return .optionString
    else if inner = .keyword "BYTES" then return .optionBytes
    else return .optionScalar (← scalarCffi inner) (scalarPlaceholder inner)
  else if ty.vecTypeP then return .vec (← vecEltInfo (← ty.second))
  else if ty.handleTypeP then
    let rustName ← ty.second
    return .handle rustName (← classOf rustName)
  else if ty.callbackTypeP then
    return .callback (← ensureTrampoline .borrowed ty)
  else if ty.storedCallbackTypeP then
    return .storedCallback (← ensureTrampoline .stored ty)
  else return .scalar (← scalarCffi ty) (decide (ty = .keyword "BOOL"))

/-- `result-plumbing`. -/
def resultForm (result : Datum) : LispResult ResultForm := do
  if result = .keyword "UNIT" then return .unit
  else if result = .keyword "STRING" then return .string
  else if result = .keyword "BYTES" then return .bytes
  else if result.handleTypeP then
    let rustName ← result.second
    return .handle rustName (← classOf rustName)
  else if result = .keyword "BOOL" then return .bool
  else if result.optionTypeP then
    let inner ← optionInner result
    if inner = .keyword "STRING" then return .optionString
    else if inner = .keyword "BYTES" then return .optionBytes
    else return .optionScalar (← scalarCffi inner)
  else if result.vecTypeP then return .vec (← vecEltInfo (← result.second))
  else return .scalar (← scalarCffi result)

/-- What `(compile nil (wrapper-form ...))` closes over, less the context. -/
structure WrapperForm where
  params : List (String × ParamForm)
  result : ResultForm
  qualified : String
  deriving DecidableEq, Repr

def namedParamForm (p : Param) : LispResult (String × ParamForm) := do
  let form ← paramForm classOf p.type
  return (stringUpcase p.name, form)

def ParamForm.isCallback : ParamForm → Bool
  | .callback _ => true
  | _ => false

def wrapperForm (fspec : FnSpec) (qualified : String) :
    LispResult WrapperForm := do
  let params ← collect (namedParamForm classOf) fspec.params
  errorUnless ((params.filter (·.2.isCallback)).length ≤ 1)
    (.manifestError
      [.text (qualified ++ ": at most one callback parameter (v1)")])
  let result ← resultForm classOf fspec.result
  return { params, result, qualified }

end WrapperForm

/-! ## Documentation -/

/-- `camel-to-kebab-name`, whose loop is `across` a string. -/
def camelToKebabName : Datum → LispResult String
  | .string name => .ok (stringDowncase (camelToKebab name))
  | _ => hostError .typeError

def spliced (parts : List Message) (separator : String) : Message :=
  (parts.intersperse [.text separator]).flatten

def docTypeLeaf (packageName : String) (ty : Datum) : LispResult Message := do
  if ty.handleTypeP then
    let name ← camelToKebabName (← ty.second)
    return [.text (stringDowncase packageName ++ ":" ++ name)]
  else return [.printedDown ty]

/-- `%doc-type`; below an option, a vector or a callback there are tokens
only, which `wrapper-form` has checked by then. -/
def docType (packageName : String) (ty : Datum) : LispResult Message := do
  if ty.optionTypeP then
    let inner ← docTypeLeaf packageName (← ty.second)
    return [.text "(:option "] ++ inner ++ [.text ")"]
  else if ty.vecTypeP then
    return [.text "(:vec ", .namedDown (← ty.second), .text ")"]
  else if ty.callbackTypeP then
    let params ← (← (← ty.cdr).getf "PARAMS").mapcar (docTypeLeaf packageName)
    return [.text "(:callback "] ++ spliced params " " ++ [.text ")"]
  else if ty.storedCallbackTypeP then
    let params ← (← (← ty.cdr).getf "PARAMS").mapcar (docTypeLeaf packageName)
    return [.text "(:stored-callback "] ++ spliced params " " ++ [.text ")"]
  else docTypeLeaf packageName ty

/-- `%call-shape`. -/
def callShape (packageName : String) (fspec : FnSpec) : String :=
  "(" ++ stringDowncase packageName ++ ":" ++ stringDowncase fspec.lispName ++
    String.join (fspec.params.map fun p => " " ++ stringDowncase p.name) ++ ")"

def docParam (packageName : String) (p : Param) : LispResult Message := do
  let type ← docType packageName p.type
  return [.text (stringDowncase p.name ++ ": ")] ++ type

def synthesizeFnDoc (packageName : String) (fspec : FnSpec) :
    LispResult Message := do
  let params ← collect (docParam packageName) fspec.params
  let result ← docType packageName fspec.result
  let signature : Message :=
    [.text ("Rust: " ++ fspec.rustName ++ "(")] ++ spliced params ", " ++
      [.text ") -> "] ++ result ++
      (match fspec.error with
        | some error => [.text (", Err(" ++ error ++ ")")]
        | none => [])
  let signals : Message :=
    match fspec.error with
    | none =>
        [.text "Signals: rulisp:rust-panic on a Rust panic; never a Rust error."]
    | some error =>
        if error = "Error" then [.text "Signals: rulisp:rust-error on Err."]
        else [.text ("Signals: " ++ stringDowncase packageName ++ ":" ++
          stringDowncase (camelToKebab error) ++
          " (a rulisp:rust-error) on Err.")]
  let lines := spliced
    [[.text (callShape packageName fspec)], signature, signals] "\n"
  return match fspec.doc with
    | some doc => [.text (doc ++ "\n\n")] ++ lines
    | none => lines

def synthesizeHandleDoc (packageName : String) (hspec : HandleSpec) :
    Message :=
  (match hspec.doc with
    | some doc => [.text (doc ++ "\n\n")]
    | none => []) ++
  [.text ("Handle class for the Rust type " ++ hspec.rustName ++
      " of crate "),
    .printed (.string (stringDowncase packageName)),
    .text (": an opaque object owned by Rust, released by rulisp:free or " ++
      "by the GC. A handle from a previous generation or image session " ++
      "signals rulisp:stale-handle-error; a freed one, " ++
      "rulisp:freed-handle-error.")]

end Rulisp
