import Rulisp.Manifest

/-!
# Export metadata

The signatures that `#[rulisp::export]` accepts, the metadata constants it
emits for them, and the manifest entries of those constants as the data a
reader makes of them.
-/

namespace Rulisp

/-! ## The type vocabulary -/

/-- `SCALARS`. -/
inductive Scalar
  | i8 | i16 | i32 | i64
  | u8 | u16 | u32 | u64
  | f32 | f64
  deriving DecidableEq, Repr

/-- A type token of the manifest. -/
inductive Token
  | scalar (s : Scalar)
  | bool
  | string
  deriving DecidableEq, Repr

/-- The keyword's name, as the reader interns it. -/
def Scalar.keyword : Scalar → String
  | .i8 => "I8"
  | .i16 => "I16"
  | .i32 => "I32"
  | .i64 => "I64"
  | .u8 => "U8"
  | .u16 => "U16"
  | .u32 => "U32"
  | .u64 => "U64"
  | .f32 => "F32"
  | .f64 => "F64"

/-- The token's text, with the colon. -/
def Scalar.text : Scalar → String
  | .i8 => ":i8"
  | .i16 => ":i16"
  | .i32 => ":i32"
  | .i64 => ":i64"
  | .u8 => ":u8"
  | .u16 => ":u16"
  | .u32 => ":u32"
  | .u64 => ":u64"
  | .f32 => ":f32"
  | .f64 => ":f64"

def Token.keyword : Token → String
  | .scalar s => s.keyword
  | .bool => "BOOL"
  | .string => "STRING"

def Token.text : Token → String
  | .scalar s => s.text
  | .bool => ":bool"
  | .string => ":string"

/-- A parameter type.  A handle type is known by its `RUST_NAME`. -/
inductive PTy
  | scalar (s : Scalar)
  | bool
  | strRef
  | bytesRef
  | handleRef (rustName : String)
  | callback (paramToks : List Token)
  | storedCallback (paramToks : List Token)
  | optionScalar (s : Scalar)
  | optionStr
  | optionBytes
  | vecScalar (s : Scalar)
  deriving DecidableEq, Repr

/-- A success type. -/
inductive RTy
  | unit
  | scalar (s : Scalar)
  | bool
  | str
  | bytes
  | handle (rustName : String)
  | optionScalar (s : Scalar)
  | optionStr
  | optionBytes
  | vecScalar (s : Scalar)
  deriving DecidableEq, Repr

inductive CallKind
  | free (ident : String)
  | method (method : String)
  | ctor (selfTy method : String)
  deriving DecidableEq, Repr

structure ExportedFn where
  doc : Option String
  rustName : String
  lispName : String
  symbol : String
  params : List (String × PTy)
  result : RTy
  error : Option String
  call : CallKind
  deriving DecidableEq, Repr

/-! ## Metadata constants -/

inductive ParamTy
  | scalar (tok : Token)
  | str
  | bytes
  | handle (rustName : String)
  | callback (params : List Token)
  | storedCallback (params : List Token)
  | option (inner : ParamTy)
  | vec (tok : Token)
  deriving DecidableEq, Repr

inductive ResultTy
  | unit
  | scalar (tok : Token)
  | str
  | bytes
  | handle (rustName : String)
  | option (inner : ResultTy)
  | vec (tok : Token)
  deriving DecidableEq, Repr

structure ParamMeta where
  name : String
  ty : ParamTy
  deriving DecidableEq, Repr

structure FnMeta where
  doc : Option String
  rustName : String
  lispName : String
  symbol : String
  params : List ParamMeta
  result : ResultTy
  error : Option String
  deriving DecidableEq, Repr

structure HandleMeta where
  doc : Option String
  rustName : String
  lispName : String
  freeSymbol : String
  deriving DecidableEq, Repr

def PTy.meta : PTy → ParamTy
  | .scalar s => .scalar (.scalar s)
  | .bool => .scalar .bool
  | .strRef => .str
  | .bytesRef => .bytes
  | .handleRef rustName => .handle rustName
  | .callback paramToks => .callback paramToks
  | .storedCallback paramToks => .storedCallback paramToks
  | .optionScalar s => .option (.scalar (.scalar s))
  | .optionStr => .option .str
  | .optionBytes => .option .bytes
  | .vecScalar s => .vec (.scalar s)

def RTy.meta : RTy → ResultTy
  | .unit => .unit
  | .scalar s => .scalar (.scalar s)
  | .bool => .scalar .bool
  | .str => .str
  | .bytes => .bytes
  | .handle rustName => .handle rustName
  | .optionScalar s => .option (.scalar (.scalar s))
  | .optionStr => .option .str
  | .optionBytes => .option .bytes
  | .vecScalar s => .vec (.scalar s)

/-- `gen_meta_const`. -/
def genMetaConst (f : ExportedFn) : FnMeta where
  doc := f.doc
  rustName := f.rustName
  lispName := f.lispName
  symbol := f.symbol
  params := f.params.map fun (name, pty) => { name := name, ty := pty.meta }
  result := f.result.meta
  error := f.error

/-! ## Manifest entries as data -/

def Token.datum (tok : Token) : Datum := .keyword tok.keyword

def optionalString : Option String → Datum
  | none => .nil
  | some value => .string value

def ParamTy.datum : ParamTy → Datum
  | .scalar tok => tok.datum
  | .str => .keyword "STRING"
  | .bytes => .keyword "BYTES"
  | .handle rustName => .ofList [.keyword "HANDLE", .string rustName]
  | .callback params =>
      .cons (.keyword "CALLBACK") (.ofPlist
        [("PARAMS", .ofList (params.map Token.datum)),
          ("RESULT", .keyword "UNIT")])
  | .storedCallback params =>
      .cons (.keyword "STORED-CALLBACK") (.ofPlist
        [("PARAMS", .ofList (params.map Token.datum)),
          ("RESULT", .keyword "UNIT")])
  | .option inner => .ofList [.keyword "OPTION", inner.datum]
  | .vec tok => .ofList [.keyword "VEC", tok.datum]

def ResultTy.datum : ResultTy → Datum
  | .unit => .keyword "UNIT"
  | .scalar tok => tok.datum
  | .str => .keyword "STRING"
  | .bytes => .keyword "BYTES"
  | .handle rustName => .ofList [.keyword "HANDLE", .string rustName]
  | .option inner => .ofList [.keyword "OPTION", inner.datum]
  | .vec tok => .ofList [.keyword "VEC", tok.datum]

def ParamMeta.datum (p : ParamMeta) : Datum :=
  .ofPlist [("NAME", .string p.name), ("TYPE", p.ty.datum)]

/-- The `:doc` of an entry is written only when there is one. -/
def docPlist : Option String → List (String × Datum)
  | none => []
  | some doc => [("DOC", .string doc)]

def FnMeta.datum (f : FnMeta) : Datum :=
  .cons (.keyword "FN") (.ofPlist
    ([("RUST-NAME", .string f.rustName), ("LISP-NAME", .string f.lispName),
      ("SYMBOL", .string f.symbol),
      ("PARAMS", .ofList (f.params.map ParamMeta.datum)),
      ("RESULT", f.result.datum), ("ERROR", optionalString f.error)] ++
      docPlist f.doc))

def HandleMeta.datum (h : HandleMeta) : Datum :=
  .cons (.keyword "HANDLE") (.ofPlist
    ([("RUST-NAME", .string h.rustName), ("LISP-NAME", .string h.lispName),
      ("FREE", .string h.freeSymbol)] ++ docPlist h.doc))

/-! ## What `parse-manifest` makes of an entry -/

def ParamMeta.spec (p : ParamMeta) : Param where
  name := p.name
  type := p.ty.datum

def FnMeta.spec (f : FnMeta) : FnSpec where
  rustName := f.rustName
  lispName := f.lispName
  symbol := f.symbol
  params := f.params.map ParamMeta.spec
  result := f.result.datum
  error := f.error
  doc := f.doc

def HandleMeta.spec (h : HandleMeta) : HandleSpec where
  rustName := h.rustName
  lispName := h.lispName
  free := h.freeSymbol
  doc := h.doc

namespace Datum

@[simp] theorem properPlist_ofPlist (entries : List (String × Datum)) :
    (ofPlist entries).properPlist = true := by
  induction entries with
  | nil => rfl
  | cons entry rest ih =>
      obtain ⟨key, value⟩ := entry
      simpa [ofPlist, properPlist] using ih

theorem lookup_ofPlist (key : String) (entries : List (String × Datum)) :
    (ofPlist entries).lookup key = (entries.lookup key).getD .nil := by
  induction entries with
  | nil => rfl
  | cons entry rest ih =>
      obtain ⟨other, value⟩ := entry
      by_cases hkey : other = key
      · subst hkey
        simp [ofPlist, lookup]
      · have hbeq : (key == other) = false := by
          simpa using Ne.symm hkey
        simp [ofPlist, lookup, hkey, List.lookup_cons, hbeq, ih]

theorem getf_ofPlist (key : String) (entries : List (String × Datum)) :
    (ofPlist entries).getf key = .ok ((entries.lookup key).getD .nil) := by
  simp [getf, lookup_ofPlist]

theorem mapcar_ofList {α β : Type} {f : Datum → LispResult β}
    {datum : α → Datum} {spec : α → β} {xs : List α}
    (hf : ∀ x ∈ xs, f (datum x) = .ok (spec x)) :
    (ofList (xs.map datum)).mapcar f = .ok (xs.map spec) := by
  induction xs with
  | nil => rfl
  | cons x rest ih =>
      have hfirst : f (datum x) = .ok (spec x) := hf x List.mem_cons_self
      have hrest := ih fun y hy => hf y (List.mem_cons_of_mem x hy)
      simp only [List.map_cons, ofList, mapcar, hfirst, hrest]
      rfl

end Datum

theorem ParamTy.datum_ne_nil (ty : ParamTy) : ty.datum ≠ .nil := by
  cases ty <;> simp [datum, Token.datum, Datum.ofList]

theorem ResultTy.datum_ne_nil (ty : ResultTy) : ty.datum ≠ .nil := by
  cases ty <;> simp [datum, Token.datum, Datum.ofList]

theorem parseParam_datum (p : ParamMeta) : parseParam p.datum = .ok p.spec := by
  have hcons : p.datum.isCons = true := rfl
  have hname : p.datum.getf "NAME" = .ok (.string p.name) := by
    simp [ParamMeta.datum, Datum.getf_ofPlist]
  have htype : p.datum.getf "TYPE" = .ok p.ty.datum := by
    simp [ParamMeta.datum, Datum.getf_ofPlist, List.lookup_cons]
  simp only [parseParam, hcons, hname, htype, errorUnless, if_true,
    Datum.stringOr, p.ty.datum_ne_nil, ne_eq, not_false_eq_true, bind,
    Except.bind]
  rfl

theorem optionalString_or (value : Option String) (e : LoadCondition) :
    (optionalString value).optionalStringOr e = .ok value := by
  cases value <;> rfl

theorem lookup_docPlist (doc : Option String) :
    ((docPlist doc).lookup "DOC").getD .nil = optionalString doc := by
  cases doc <;> rfl

theorem parseFn_datum (f : FnMeta) : parseFn f.datum = .ok f.spec := by
  have hparams : (Datum.ofList (f.params.map ParamMeta.datum)).mapcar
      parseParam = .ok (f.params.map ParamMeta.spec) :=
    Datum.mapcar_ofList fun p _ => parseParam_datum p
  simp [parseFn, FnMeta.datum, getfString, getfOptionalString,
    Datum.getf_ofPlist, Datum.stringOr, List.lookup_cons, hparams, errorUnless,
    f.result.datum_ne_nil, optionalString_or, lookup_docPlist, bind,
    Except.bind, FnMeta.spec]
  rfl

theorem parseHandle_datum (h : HandleMeta) :
    parseHandle h.datum = .ok h.spec := by
  simp [parseHandle, HandleMeta.datum, getfString, getfOptionalString,
    Datum.getf_ofPlist, Datum.stringOr, List.lookup_cons, optionalString_or,
    lookup_docPlist, bind, Except.bind, HandleMeta.spec]
  rfl

end Rulisp
