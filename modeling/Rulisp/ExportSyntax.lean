import Rulisp.ManifestText
import Rulisp.MacroShim

/-!
# Signatures as syntax

What `#[rulisp::export]` is given, in so far as it looks into it, and the
classifiers that make an exported function of it or refuse it.
-/

namespace Rulisp

/-- An identifier's text, with `r#` where it is written so. -/
structure Ident where
  text : String
  isName : IsName text

/-! ## Types -/

mutual

/-- `syn::Type`; `other` is any form that no function of the macro takes
apart, with the lifetimes that are written in it. -/
inductive Ty
  | reference (lifetime : Option String) (isMut : Bool) (elem : Ty)
  | slice (elem : Ty)
  | tuple (elems : List Ty)
  | paren (elem : Ty)
  | group (elem : Ty)
  /-- With the `T` of a `<T as Trait>` that it may begin with. -/
  | path (qself : Option Ty) (p : Path)
  | other (lifetimes : List String)

/-- `syn::Path`; there is a last segment in every path that is parsed. -/
inductive Path
  | mk (leadingColon : Bool) (init : List Segment) (last : Segment)

inductive Segment
  | mk (ident : Ident) (arguments : PathArguments)

inductive PathArguments
  | none
  | angleBracketed (args : List GenericArgument)
  | parenthesized (inputs : List Ty) (output : Option Ty)

inductive GenericArgument
  | lifetime (ident : String)
  | type (ty : Ty)
  | other (lifetimes : List String)

end

def Segment.ident : Segment → Ident
  | .mk ident _ => ident

def Path.last : Path → Segment
  | .mk _ _ last => last

def Path.isIdent (name : String) : Path → Bool
  | .mk false [] (.mk ident .none) => ident.text = name
  | _ => false

def Ty.isUnit : Ty → Bool
  | .tuple [] => true
  | _ => false

/-! ## Errors -/

abbrev MacroResult := Except String

theorem MacroResult.bind_eq_ok {α β : Type} {x : MacroResult α}
    {f : α → MacroResult β} {b : β} :
    (x >>= f) = .ok b ↔ ∃ a, x = .ok a ∧ f a = .ok b := by
  cases x with
  | error e => simp [bind, Except.bind]
  | ok a => simp [bind, Except.bind]

theorem MacroResult.exists_ok {α : Type} {x : MacroResult α}
    (haccepted : x.toOption.isSome = true) : ∃ a, x = .ok a := by
  cases x with
  | error e => cases haccepted
  | ok a => exact ⟨a, rfl⟩

def unsupportedMessage : String :=
  "rulisp: unsupported type for export — accepted: i8..i64, u8..u64, f32, f64, bool, " ++
  "&str, &[u8], &[scalar], Option of these, &HandleType, Callback/StoredCallback; " ++
  "String/Vec<u8>/Vec<scalar>/Option/handle returns; and Result thereof " ++
  "(DESIGN.md §5 type vocabulary; Option<bool> is rejected — Lisp nil is ambiguous)"

def unsupported {α : Type} : MacroResult α := .error unsupportedMessage

def optionBoolMessage : String :=
  "rulisp: Option<bool> is rejected — Lisp nil cannot " ++
  "distinguish None from Some(false); use Option<i8>"

/-! ## Lifetimes -/

/-- `named`. -/
def named (lt : String) : MacroResult Unit :=
  if lt = "_" then .ok ()
  else
    .error ("rulisp: explicit lifetimes are not allowed in export signatures — " ++
      "a Lisp-owned borrow is only valid for the duration of the call; " ++
      "elide the lifetime")

mutual

def rejectNamedLifetimes : Ty → MacroResult Unit
  | .reference lifetime _ elem => do
      lifetime.forM named
      rejectNamedLifetimes elem
  | .slice elem => rejectNamedLifetimes elem
  | .tuple elems => rejectElems elems
  | .paren elem => rejectNamedLifetimes elem
  | .group elem => rejectNamedLifetimes elem
  | .path _ (.mk _ init last) => do
      rejectSegments init
      rejectSegment last
  -- anything else fails classification as unsupported anyway
  | .other _ => .ok ()

def rejectElems : List Ty → MacroResult Unit
  | [] => .ok ()
  | ty :: rest => do
      rejectNamedLifetimes ty
      rejectElems rest

def rejectSegments : List Segment → MacroResult Unit
  | [] => .ok ()
  | seg :: rest => do
      rejectSegment seg
      rejectSegments rest

def rejectSegment : Segment → MacroResult Unit
  | .mk _ (.angleBracketed args) => rejectArguments args
  | _ => .ok ()

def rejectArguments : List GenericArgument → MacroResult Unit
  | [] => .ok ()
  | .lifetime lt :: rest => do
      named lt
      rejectArguments rest
  | .type ty :: rest => do
      rejectNamedLifetimes ty
      rejectArguments rest
  | .other _ :: rest => rejectArguments rest

end

/-! ## Parameters -/

/-- The names of `SCALARS`. -/
def Scalar.name : Scalar → String
  | .i8 => "i8"
  | .i16 => "i16"
  | .i32 => "i32"
  | .i64 => "i64"
  | .u8 => "u8"
  | .u16 => "u16"
  | .u32 => "u32"
  | .u64 => "u64"
  | .f32 => "f32"
  | .f64 => "f64"

def scalars : List Scalar :=
  [.i8, .i16, .i32, .i64, .u8, .u16, .u32, .u64, .f32, .f64]

def findScalar (name : String) : Option Scalar :=
  scalars.find? fun s => s.name = name

section Classify

-- `<P as HandleType>::RUST_NAME` of a handle's path
variable (rustNameOf : Path → Ident)

/-- The reference types of `classify_param`. -/
def classifyReference (isMut : Bool) (elem : Ty) : MacroResult PTy :=
  if isMut then
    .error ("rulisp: &mut parameters are not supported (v1) — use interior " ++
      "mutability (Mutex/RwLock/atomics) inside the handle type")
  else
    match elem with
    | .slice (.path _ p) =>
        if p.isIdent "u8" then .ok .bytesRef
        else
          match findScalar p.last.ident.text with
          | some s => .ok (.vecScalar s)
          | none => unsupported
    | .path _ p =>
        if p.isIdent "str" then .ok .strRef
        else .ok (.handleRef (rustNameOf p).text)
    | _ => unsupported

/-- What `Option` makes of its classified argument. -/
def optionOf : PTy → MacroResult PTy
  | .scalar s => .ok (.optionScalar s)
  | .strRef => .ok .optionStr
  | .bytesRef => .ok .optionBytes
  | .bool => .error optionBoolMessage
  | _ => unsupported

def callbackToken : PTy → MacroResult Token
  | .strRef => .ok .string
  | .scalar s => .ok (.scalar s)
  | .bool => .ok .bool
  | _ => .error "rulisp: v1 callback parameters may only be scalars or &str"

/-- The tuple and the result among a callback's type arguments, which come
with what is made of them as the tuple. -/
def callbackOf (stored : Bool) :
    List (Ty × MacroResult (List Token)) → MacroResult PTy
  | [(.tuple _, paramToks)] =>
      if stored then paramToks.map .storedCallback else unsupported
  | [(.tuple _, paramToks), (result, _)] =>
      if result.isUnit then
        paramToks.map (if stored then .storedCallback else .callback)
      else .error "rulisp: callbacks must return () — Callback<(...), ()>"
  | _ => unsupported

mutual

def classifyParam : Ty → MacroResult PTy
  | .reference lifetime isMut elem => do
      rejectNamedLifetimes (.reference lifetime isMut elem)
      classifyReference rustNameOf isMut elem
  | .path qself (.mk leadingColon init (.mk ident arguments)) => do
      rejectNamedLifetimes
        (.path qself (.mk leadingColon init (.mk ident arguments)))
      match findScalar ident.text with
      | some s => .ok (.scalar s)
      | none =>
          if ident.text = "bool" then .ok .bool
          else if ident.text = "Callback" then classifyCallback false arguments
          else if ident.text = "StoredCallback" then
            classifyCallback true arguments
          else if ident.text = "Option" then classifyOption arguments
          else unsupported
  | ty => do
      rejectNamedLifetimes ty
      unsupported

def classifyOption : PathArguments → MacroResult PTy
  | .angleBracketed (.type inner :: _) => do
      let pty ← classifyParam inner
      optionOf pty
  | _ => unsupported

def classifyCallback (stored : Bool) : PathArguments → MacroResult PTy
  | .angleBracketed args => callbackOf stored (callbackTypes args)
  | _ => unsupported

/-- The type arguments, each with its elements' tokens. -/
def callbackTypes : List GenericArgument → List (Ty × MacroResult (List Token))
  | [] => []
  | .type ty :: rest => (ty, tupleTokens ty) :: callbackTypes rest
  | .lifetime _ :: rest => callbackTypes rest
  | .other _ :: rest => callbackTypes rest

def tupleTokens : Ty → MacroResult (List Token)
  | .tuple elems => elemTokens elems
  | _ => unsupported

def elemTokens : List Ty → MacroResult (List Token)
  | [] => .ok []
  | elem :: rest => do
      let pty ← classifyParam elem
      let tok ← callbackToken pty
      let toks ← elemTokens rest
      return tok :: toks

end

/-! ## Results -/

/-- What `Option` makes of its classified result. -/
def optionResultOf : RTy → MacroResult RTy
  | .scalar s => .ok (.optionScalar s)
  | .str => .ok .optionStr
  | .bytes => .ok .optionBytes
  | .bool => .error optionBoolMessage
  | .handle _ =>
      .error ("rulisp: Option<T> is not a result type when T is a handle " ++
        "or a type rulisp does not know — a handle result is a " ++
        "constructor's Handle or Result<Handle, E>; for " ++
        "'the next item or none', export a bool wait and a " ++
        "constructor (examples/fetch: client-next-ready + make-req; " ++
        "examples/httpd: server-wait + take-request)")
  | _ => unsupported

def classifyVec : PathArguments → MacroResult RTy
  | .angleBracketed [.type (.path _ p)] =>
      if p.isIdent "u8" then .ok .bytes
      else
        match findScalar p.last.ident.text with
        | some s => .ok (.vecScalar s)
        | none => unsupported
  | _ => unsupported

mutual

/-- `classify_result` of a written type. -/
def classifyResultTy (ctor : Bool) : Ty → MacroResult RTy
  | .tuple elems => if elems.isEmpty then .ok .unit else unsupported
  | .path _ (.mk leadingColon init (.mk ident arguments)) =>
      match findScalar ident.text with
      | some s => .ok (.scalar s)
      | none =>
          if ident.text = "bool" then .ok .bool
          else if ident.text = "String" then .ok .str
          else if ident.text = "Vec" then classifyVec arguments
          else if ident.text = "Option" then classifyOptionResult arguments
          else if ctor then
            .ok (.handle (rustNameOf
              (.mk leadingColon init (.mk ident arguments))).text)
          else
            .error ("rulisp: handle-returning functions must be constructors — " ++
              "mark the method with #[rulisp(constructor)]")
  | _ => unsupported

def classifyOptionResult : PathArguments → MacroResult RTy
  -- as of a constructor, for a handle's own message
  | .angleBracketed (.type inner :: _) => do
      let rty ← classifyResultTy true inner
      optionResultOf rty
  | _ => unsupported

end

def classifyResult (ctor : Bool) : Option Ty → MacroResult RTy
  | none => .ok .unit
  | some ty => classifyResultTy rustNameOf ctor ty

end Classify

def typeArguments (args : List GenericArgument) : List Ty :=
  args.filterMap fun
    | .type ty => some ty
    | _ => none

def errorName : Ty → String
  | .path _ p => p.last.ident.text
  | _ => ""

def splitResult : Option Ty → Option Ty × Option String
  | none => (none, none)
  | some (.path qself (.mk leadingColon init (.mk ident arguments))) =>
      let ty := Ty.path qself (.mk leadingColon init (.mk ident arguments))
      match arguments with
      | .angleBracketed args =>
          if ident.text = "Result" then
            match typeArguments args with
            | [ok, err] => (some ok, some (errorName err))
            | _ => (some ty, none)
          else (some ty, none)
      | _ => (some ty, none)
  | some ty => (some ty, none)

/-! ## Signatures -/

structure Receiver where
  /-- The lifetime, if any, of a `&` before `self`. -/
  reference : Option (Option String)
  isMut : Bool
  colonToken : Bool

/-- `syn::Signature`; a receiver stands first.  A pattern that is no plain
name is `none`. -/
structure Signature where
  ident : Ident
  receiver : Option Receiver
  inputs : List (Option Ident × Ty)
  output : Option Ty

section Export

variable (rustNameOf : Path → Ident)

def selfParam : Option Path → MacroResult (String × PTy)
  | some selfTy => .ok ("self", .handleRef (rustNameOf selfTy).text)
  | none => .error "rulisp: self outside an exported impl block"

/-- The receiver of `fn_params`. -/
def receiverParam (selfTy : Option Path) (r : Receiver) :
    MacroResult (String × PTy) := do
  match r.reference with
  | some (some lt) =>
      if lt ≠ "_" then
        .error ("rulisp: explicit lifetimes are not allowed in export " ++
          "signatures — a handle borrow is only valid for the " ++
          "duration of the call; write &self")
  | _ => pure ()
  if r.isMut then
    .error ("rulisp: &mut self methods are not supported (v1) — use interior " ++
      "mutability (Mutex/RwLock/atomics)")
  if r.reference = none then
    .error
      (if r.colonToken then
        "rulisp: typed self receivers are not supported — write &self"
      else "rulisp: by-value self is not supported — methods take &self")
  selfParam rustNameOf selfTy

/-- A typed parameter of `fn_params`. -/
def typedParam (input : Option Ident × Ty) : MacroResult (String × PTy) :=
  match input with
  | (some pat, ty) => do
      let pty ← classifyParam rustNameOf ty
      return (pat.text, pty)
  | (none, _) =>
      .error "rulisp: parameter patterns are not supported — use plain names"

def fnParams (selfTy : Option Path) (sig : Signature) :
    MacroResult (List (String × PTy)) :=
  match sig.receiver with
  | some r => do
      let self ← receiverParam rustNameOf selfTy r
      let typed ← sig.inputs.mapM (typedParam rustNameOf)
      return self :: typed
  | none => sig.inputs.mapM (typedParam rustNameOf)

/-- `doc_of` the lines of the `doc` attributes. -/
def docOf (lines : List String) : Option String :=
  let strip (raw : List Char) : List Char :=
    match raw with
    | ' ' :: rest => rest
    | raw => raw
  let joined := ['\n'].intercalate (lines.map fun line => strip line.toList)
  let trimmed := ((joined.dropWhile isRustWhitespace).reverse.dropWhile
    isRustWhitespace).reverse
  if trimmed = [] then none else some (.ofList trimmed)

/-- The shim's name is no raw identifier: `Ident::new` panics on one. -/
def shimIdentOf (pfx symbol : String) : MacroResult String :=
  if '#' ∈ symbol.toList then
    .error ((pfx ++ symbol) ++ " is not a valid Ident")
  else .ok (pfx ++ symbol)

/-- `gen_fn` of a function that was put together. -/
def expand (pfx : String) (f : ExportedFn) : MacroResult (ExportedFn × Shim) := do
  let _ ← shimIdentOf pfx f.symbol
  let shim ← genFn pfx f
  return (f, shim)

def exportFreeFn (pfx : String) (docs : List String) (sig : Signature) :
    MacroResult (ExportedFn × Shim) := do
  let name := sig.ident.text
  let params ← fnParams rustNameOf none sig
  let result ← classifyResult rustNameOf false (splitResult sig.output).1
  expand pfx
    { doc := docOf docs
      rustName := name
      lispName := snakeToKebab name
      symbol := name
      params := params
      result := result
      error := (splitResult sig.output).2
      call := .free name }

/-- One item of `#[rulisp(...)]`; `invalid` has another key, no string for
its name or does not parse. -/
inductive MetaItem
  | constructor
  | name (value : String)
  | invalid

/-- What the `retain` loop has seen: `is_ctor`, `ctor_name`, `attr_err`. -/
structure AttrState where
  isCtor : Bool := false
  ctorName : Option String := none
  attrErr : Option String := none

/-- The `ctor` and `name` of one attribute. -/
def parseNestedMeta (items : List MetaItem) : MacroResult (Bool × Option String) :=
  items.foldlM (fun (ctor, name) item =>
    match item with
    | .constructor => .ok (true, name)
    | .name value => .ok (ctor, some value)
    | .invalid =>
        .error ("rulisp: unknown attribute key — expected `constructor` " ++
          "or `constructor, name = \"…\"`"))
    (false, none)

def AttrState.next (state : AttrState) (items : List MetaItem) : AttrState :=
  match parseNestedMeta items with
  | .error e => { state with attrErr := some e }
  | .ok (ctor, name) =>
      if name.isSome && !ctor then
        { state with
          attrErr := some ("rulisp: `name = …` is only meaningful on a constructor " ++
            "(#[rulisp(constructor, name = \"make-…\")])") }
      else if ctor then { state with isCtor := true, ctorName := name }
      else state

/-- A method of an exported `impl`, with its `#[rulisp(...)]` attributes. -/
structure Method where
  docs : List String
  attrs : List (List MetaItem)
  sig : Signature

/-- An attribute that does not parse, then an explicit name that is no
symbol. -/
def AttrState.check (state : AttrState) : MacroResult Unit :=
  match state.attrErr, state.ctorName with
  | some e, _ => .error e
  | none, none => .ok ()
  | none, some v =>
      if constructorNameBad v then
        .error ("rulisp: constructor name must be a non-empty Lisp symbol name " ++
          "without whitespace or reader syntax (e.g. \"make-bag-from\")")
      else .ok ()

def checkConstructor (isCtor : Bool) (sig : Signature) : MacroResult Unit :=
  if isCtor && sig.receiver.isSome then
    .error ("rulisp: a constructor cannot take &self — take the producing " ++
      "handle as an ordinary parameter instead, e.g. " ++
      "`fn start(client: &Client, url: &str) -> Result<Req, Error>`")
  else .ok ()

/-- The `ExportedFn` of a method. -/
def Method.exported (case : CaseMapping) (tyIdent : String)
    (attrs : AttrState) (m : Method) (params : List (String × PTy))
    (result : RTy) : ExportedFn :=
  let mname := m.sig.ident.text
  let snake := camelToSnake case tyIdent
  let kebab := snakeToKebab snake
  { doc := docOf m.docs
    rustName := tyIdent ++ "::" ++ mname
    lispName :=
      match attrs.ctorName with
      | some v => v
      | none =>
          if attrs.isCtor then "make-" ++ kebab
          else kebab ++ "-" ++ snakeToKebab mname
    symbol := snake ++ "_" ++ mname
    params := params
    result := result
    error := (splitResult m.sig.output).2
    call := if attrs.isCtor then .ctor tyIdent mname else .method mname }

def exportMethod (case : CaseMapping) (pfx : String) (selfTy : Path)
    (m : Method) : MacroResult (ExportedFn × Shim) := do
  let attrs := m.attrs.foldl AttrState.next {}
  attrs.check
  checkConstructor attrs.isCtor m.sig
  let params ← fnParams rustNameOf (some selfTy) m.sig
  let result ← classifyResult rustNameOf attrs.isCtor
    (splitResult m.sig.output).1
  expand pfx (m.exported case selfTy.last.ident.text attrs params result)

/-- One exported function, free or of an `impl` block. -/
inductive ExportItem
  | free (docs : List String) (sig : Signature)
  | method (selfTy : Ty) (m : Method)

def ExportItem.sig : ExportItem → Signature
  | .free _ sig => sig
  | .method _ m => m.sig

def exportItem (case : CaseMapping) (pfx : String) :
    ExportItem → MacroResult (ExportedFn × Shim)
  | .free docs sig => exportFreeFn rustNameOf pfx docs sig
  | .method (.path _ selfTy) m => exportMethod rustNameOf case pfx selfTy m
  | .method _ _ =>
      .error "rulisp: exported impl must be on a plain type"

end Export

/-! ## Accepted items -/

theorem MacroResult.mapM_eq_ok {α β : Type} {f : α → MacroResult β}
    {xs : List α} {ys : List β} (hmap : xs.mapM f = .ok ys) :
    List.Forall₂ (fun x y => f x = .ok y) xs ys := by
  induction xs generalizing ys with
  | nil =>
      cases hmap
      exact .nil
  | cons x rest ih =>
      rw [List.mapM_cons] at hmap
      obtain ⟨y, hy, hmap⟩ := MacroResult.bind_eq_ok.mp hmap
      obtain ⟨others, hothers, hmap⟩ := MacroResult.bind_eq_ok.mp hmap
      cases hmap
      exact .cons hy (ih hothers)

theorem expand_eq_ok {pfx : String} {f f' : ExportedFn} {shim : Shim}
    (hexpand : expand pfx f = .ok (f', shim)) :
    f' = f ∧ genFn pfx f = .ok shim ∧ '#' ∉ f.symbol.toList := by
  obtain ⟨ident, hident, hexpand⟩ := MacroResult.bind_eq_ok.mp hexpand
  obtain ⟨_, hshim, hexpand⟩ := MacroResult.bind_eq_ok.mp hexpand
  cases hexpand
  refine ⟨rfl, hshim, fun hraw => ?_⟩
  rw [shimIdentOf, if_pos hraw] at hident
  cases hident

/-- What `fn_params` makes of a signature's receiver and parameters. -/
theorem fnParams_eq_ok {rustNameOf : Path → Ident} {selfTy : Option Path}
    {sig : Signature} {params : List (String × PTy)}
    (hparams : fnParams rustNameOf selfTy sig = .ok params) :
    ∃ self typed, params = self ++ typed ∧
      List.Forall₂ (fun r p => receiverParam rustNameOf selfTy r = .ok p)
        sig.receiver.toList self ∧
      List.Forall₂ (fun input p => typedParam rustNameOf input = .ok p)
        sig.inputs typed := by
  unfold fnParams at hparams
  split at hparams
  · rename_i r hreceiver
    obtain ⟨self, hself, hparams⟩ := MacroResult.bind_eq_ok.mp hparams
    obtain ⟨typed, htyped, hparams⟩ := MacroResult.bind_eq_ok.mp hparams
    cases hparams
    exact ⟨[self], typed, rfl, by simpa [hreceiver] using hself,
      MacroResult.mapM_eq_ok htyped⟩
  · rename_i hreceiver
    exact ⟨[], params, rfl, by simp [hreceiver],
      MacroResult.mapM_eq_ok hparams⟩

/-- Every accepted item has a shim of its classified parameters. -/
theorem exportItem_eq_ok {rustNameOf : Path → Ident} {case : CaseMapping}
    {pfx : String} {item : ExportItem} {f : ExportedFn} {shim : Shim}
    (hitem : exportItem rustNameOf case pfx item = .ok (f, shim)) :
    (∃ selfTy, fnParams rustNameOf selfTy item.sig = .ok f.params) ∧
      genFn pfx f = .ok shim := by
  cases item with
  | free docs sig =>
      obtain ⟨params, hparams, hitem⟩ := MacroResult.bind_eq_ok.mp hitem
      obtain ⟨result, -, hitem⟩ := MacroResult.bind_eq_ok.mp hitem
      obtain ⟨rfl, hgen, -⟩ := expand_eq_ok hitem
      exact ⟨⟨none, hparams⟩, hgen⟩
  | method selfTy m =>
      cases selfTy with
      | path qself selfTy =>
          obtain ⟨⟨⟩, -, hitem⟩ := MacroResult.bind_eq_ok.mp hitem
          obtain ⟨⟨⟩, -, hitem⟩ := MacroResult.bind_eq_ok.mp hitem
          obtain ⟨params, hparams, hitem⟩ := MacroResult.bind_eq_ok.mp hitem
          obtain ⟨result, -, hitem⟩ := MacroResult.bind_eq_ok.mp hitem
          obtain ⟨rfl, hgen, -⟩ := expand_eq_ok hitem
          exact ⟨⟨some selfTy, hparams⟩, hgen⟩
      | _ => cases hitem

end Rulisp
