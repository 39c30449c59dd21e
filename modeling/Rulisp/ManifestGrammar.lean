import Rulisp.ExportMeta

/-!
# The grammar of manifests

Which data `parse-manifest` accepts and what each of them describes, said of
the entries and without the order in which they are checked.
-/

namespace Rulisp

/-! ## Lists and entries -/

/-- A proper list, each of whose elements describes one of the values. -/
inductive Datum.ListOf {α : Type} (R : Datum → α → Prop) : Datum → List α → Prop
  | nil : ListOf R .nil []
  | cons {first rest : Datum} {x : α} {xs : List α} (hfirst : R first x)
      (hrest : ListOf R rest xs) : ListOf R (.cons first rest) (x :: xs)

structure ParamRead (form : Datum) (p : Param) : Prop where
  proper : form.properPlist = true
  name : form.lookup "NAME" = .string p.name
  type : form.lookup "TYPE" = p.type
  typed : p.type ≠ .nil

/-- The tail of a `:handle` form. -/
structure HandlePlist (plist : Datum) (h : HandleSpec) : Prop where
  proper : plist.properPlist = true
  rustName : plist.lookup "RUST-NAME" = .string h.rustName
  lispName : plist.lookup "LISP-NAME" = .string h.lispName
  free : plist.lookup "FREE" = .string h.free
  doc : plist.lookup "DOC" = optionalString h.doc

def HandleRead (form : Datum) (h : HandleSpec) : Prop :=
  ∃ plist, form = .cons (.keyword "HANDLE") plist ∧ HandlePlist plist h

/-- The tail of a `:fn` form. -/
structure FnPlist (plist : Datum) (f : FnSpec) : Prop where
  proper : plist.properPlist = true
  rustName : plist.lookup "RUST-NAME" = .string f.rustName
  lispName : plist.lookup "LISP-NAME" = .string f.lispName
  symbol : plist.lookup "SYMBOL" = .string f.symbol
  params : (plist.lookup "PARAMS").ListOf ParamRead f.params
  result : plist.lookup "RESULT" = f.result
  typed : f.result ≠ .nil
  error : plist.lookup "ERROR" = optionalString f.error
  doc : plist.lookup "DOC" = optionalString f.doc

def FnRead (form : Datum) (f : FnSpec) : Prop :=
  ∃ plist, form = .cons (.keyword "FN") plist ∧ FnPlist plist f

/-! ## The manifest -/

/-- `:errors` as `every` accepts it. -/
def ErrorsRead (errors : Datum) : Prop :=
  errors = .string "" ∨
    ∃ names : List String, errors = .ofList (names.map .string)

/-- Handles under different names. -/
def HandlesRead (handles : Datum) (specs : List HandleSpec) : Prop :=
  handles.ListOf HandleRead specs ∧ (specs.map HandleSpec.lispName).Nodup

def FunctionsRead (functions : Datum) (specs : List FnSpec) : Prop :=
  functions.ListOf FnRead specs ∧ (specs.map FnSpec.lispName).Nodup

/-- The hook is a declared function without parameters and result. -/
def HookDeclared (m : Manifest) : Prop :=
  ∀ symbol ∈ m.onDump, ∃ spec,
    m.functions.find? (fun spec => spec.symbol == symbol) = some spec ∧
      spec.params = [] ∧ spec.result = .keyword "UNIT"

/-- The tail of a manifest form. -/
structure ManifestPlist (plist : Datum) (m : Manifest) : Prop where
  proper : plist.properPlist = true
  schema : plist.lookup "SCHEMA" = .integer m.schema
  supported : m.schema ≤ 1
  abi : plist.lookup "ABI" = .integer m.abi
  crate : plist.lookup "CRATE" = .string m.crate
  crateVersion : plist.lookup "CRATE-VERSION" = optionalString m.crateVersion
  target : plist.lookup "TARGET" = optionalString m.target
  pfx : plist.lookup "PREFIX" = .string m.pfx
  errors : plist.lookup "ERRORS" = m.errors
  strings : ErrorsRead m.errors
  handles : HandlesRead (plist.lookup "HANDLES") m.handles
  functions : FunctionsRead (plist.lookup "FUNCTIONS") m.functions
  onDump : plist.lookup "ON-DUMP" = optionalString m.onDump
  rulispVersion : plist.lookup "RULISP-VERSION" = optionalString m.rulispVersion
  hook : HookDeclared m

def ManifestRead (form : Datum) (m : Manifest) : Prop :=
  ∃ plist, form = .cons (.keyword "RULISP-MANIFEST") plist ∧
    ManifestPlist plist m

/-! ## What is accepted -/

section Accepted

theorem getf_eq_ok {plist value : Datum} {key : String} :
    plist.getf key = .ok value ↔
      plist.properPlist = true ∧ plist.lookup key = value := by
  unfold Datum.getf
  split
  · rename_i hproper
    simp only [Except.ok.injEq, hproper, true_and]
  · rename_i hproper
    simp only [hostError, reduceCtorEq, hproper, false_and]

theorem stringOr_eq_ok {value : Datum} {e : LoadCondition} {s : String} :
    value.stringOr e = .ok s ↔ value = .string s := by
  cases value <;> simp [Datum.stringOr]

theorem optionalStringOr_eq_ok {value : Datum} {e : LoadCondition}
    {s : Option String} :
    value.optionalStringOr e = .ok s ↔ value = optionalString s := by
  cases s <;> cases value <;> simp [Datum.optionalStringOr, optionalString]

theorem integerOr_eq_ok {value : Datum} {e : LoadCondition} {n : ℤ} :
    value.integerOr e = .ok n ↔ value = .integer n := by
  cases value <;> simp [Datum.integerOr]

variable {plist : Datum} {key : String}

theorem getfString_eq_ok {s : String} : getfString plist key = .ok s ↔
    plist.properPlist = true ∧ plist.lookup key = .string s := by
  simp only [getfString, LispResult.bind_eq_ok, getf_eq_ok, stringOr_eq_ok]
  constructor
  · rintro ⟨_, ⟨hproper, rfl⟩, hstring⟩
    exact ⟨hproper, hstring⟩
  · rintro ⟨hproper, hstring⟩
    exact ⟨_, ⟨hproper, rfl⟩, hstring⟩

theorem getfOptionalString_eq_ok {s : Option String} :
    getfOptionalString plist key = .ok s ↔
      plist.properPlist = true ∧ plist.lookup key = optionalString s := by
  simp only [getfOptionalString, LispResult.bind_eq_ok, getf_eq_ok,
    optionalStringOr_eq_ok]
  constructor
  · rintro ⟨_, ⟨hproper, rfl⟩, hstring⟩
    exact ⟨hproper, hstring⟩
  · rintro ⟨hproper, hstring⟩
    exact ⟨_, ⟨hproper, rfl⟩, hstring⟩

theorem getfInt_eq_ok {n : ℤ} : getfInt plist key = .ok n ↔
    plist.properPlist = true ∧ plist.lookup key = .integer n := by
  simp only [getfInt, LispResult.bind_eq_ok, getf_eq_ok, integerOr_eq_ok]
  constructor
  · rintro ⟨_, ⟨hproper, rfl⟩, hinteger⟩
    exact ⟨hproper, hinteger⟩
  · rintro ⟨hproper, hinteger⟩
    exact ⟨_, ⟨hproper, rfl⟩, hinteger⟩

theorem mapcar_eq_ok {α : Type} {f : Datum → LispResult α}
    {R : Datum → α → Prop} (hread : ∀ form x, f form = .ok x ↔ R form x)
    {datum : Datum} {xs : List α} :
    datum.mapcar f = .ok xs ↔ datum.ListOf R xs := by
  induction datum generalizing xs with
  | nil =>
      constructor
      · rintro ⟨⟩
        exact .nil
      · rintro ⟨⟩
        rfl
  | cons first rest _ ih =>
      simp only [Datum.mapcar, LispResult.bind_eq_ok, hread, ih]
      constructor
      · rintro ⟨x, hfirst, xs, hrest, ⟨⟩⟩
        exact .cons hfirst hrest
      · rintro (_ | ⟨hfirst, hrest⟩)
        exact ⟨_, hfirst, _, hrest, rfl⟩
  | keyword name =>
      constructor
      · rintro ⟨⟩
      · rintro ⟨⟩
  | string value =>
      constructor
      · rintro ⟨⟩
      · rintro ⟨⟩
  | integer value =>
      constructor
      · rintro ⟨⟩
      · rintro ⟨⟩

theorem isCons_of_lookup {datum value : Datum}
    (hlookup : datum.lookup key = value) (hvalue : value ≠ .nil) : datum.isCons = true := by
  cases datum with
  | cons first rest => rfl
  | _ => exact absurd hlookup.symm hvalue

theorem parseParam_eq_ok (form : Datum) (p : Param) :
    parseParam form = .ok p ↔ ParamRead form p := by
  simp only [parseParam, LispResult.bind_eq_ok, errorUnless_eq_ok, getf_eq_ok,
    stringOr_eq_ok]
  constructor
  · rintro ⟨_, -, _, ⟨hproper, rfl⟩, name, hname, type, ⟨-, htype⟩, _, htyped,
      ⟨⟩⟩
    exact ⟨hproper, hname, htype, htyped⟩
  · rintro ⟨hproper, hname, htype, htyped⟩
    have hcons := isCons_of_lookup hname (by simp)
    exact ⟨(), hcons, _, ⟨hproper, rfl⟩, p.name, hname, p.type,
      ⟨hproper, htype⟩, (), htyped, rfl⟩

theorem parseHandle_eq_ok (form : Datum) (h : HandleSpec) :
    parseHandle form = .ok h ↔ HandleRead form h := by
  unfold parseHandle HandleRead
  split
  · rename_i plist
    simp only [LispResult.bind_eq_ok, getfString_eq_ok,
      getfOptionalString_eq_ok, Datum.cons.injEq, true_and]
    constructor
    · rintro ⟨rustName, ⟨hproper, hrust⟩, lispName, ⟨-, hlisp⟩, free,
        ⟨-, hfree⟩, doc, ⟨-, hdoc⟩, ⟨⟩⟩
      exact ⟨plist, rfl, hproper, hrust, hlisp, hfree, hdoc⟩
    · rintro ⟨_, rfl, hproper, hrust, hlisp, hfree, hdoc⟩
      exact ⟨_, ⟨hproper, hrust⟩, _, ⟨hproper, hlisp⟩, _, ⟨hproper, hfree⟩, _,
        ⟨hproper, hdoc⟩, rfl⟩
  · rename_i hother
    constructor
    · rintro ⟨⟩
    · rintro ⟨plist, rfl, -⟩
      exact absurd rfl (hother plist)

theorem parseFn_eq_ok (form : Datum) (f : FnSpec) :
    parseFn form = .ok f ↔ FnRead form f := by
  unfold parseFn FnRead
  split
  · rename_i plist
    simp only [LispResult.bind_eq_ok, getfString_eq_ok, getf_eq_ok,
      getfOptionalString_eq_ok, errorUnless_eq_ok,
      mapcar_eq_ok parseParam_eq_ok, Datum.cons.injEq, true_and]
    constructor
    · rintro ⟨rustName, ⟨hproper, hrust⟩, lispName, ⟨-, hlisp⟩, symbol,
        ⟨-, hsymbol⟩, _, ⟨-, rfl⟩, params, hparams, result, ⟨-, hresult⟩, _,
        htyped, error, ⟨-, herror⟩, doc, ⟨-, hdoc⟩, ⟨⟩⟩
      exact ⟨plist, rfl, hproper, hrust, hlisp, hsymbol, hparams, hresult,
        htyped, herror, hdoc⟩
    · rintro ⟨_, rfl, hproper, hrust, hlisp, hsymbol, hparams, hresult, htyped,
        herror, hdoc⟩
      exact ⟨_, ⟨hproper, hrust⟩, _, ⟨hproper, hlisp⟩, _, ⟨hproper, hsymbol⟩,
        _, ⟨hproper, rfl⟩, _, hparams, _, ⟨hproper, hresult⟩, (), htyped, _,
        ⟨hproper, herror⟩, _, ⟨hproper, hdoc⟩, rfl⟩
  · rename_i hother
    constructor
    · rintro ⟨⟩
    · rintro ⟨plist, rfl, -⟩
      exact absurd rfl (hother plist)

theorem everyStringpList_eq_true {errors : Datum} :
    everyStringpList errors = .ok true ↔
      ∃ names : List String, errors = .ofList (names.map .string) := by
  constructor
  · fun_induction everyStringpList errors with
    | case1 => exact fun _ => ⟨[], rfl⟩
    | case2 value rest ih =>
        intro hok
        obtain ⟨names, rfl⟩ := ih hok
        exact ⟨value :: names, rfl⟩
    | case3 first rest hfirst => rintro ⟨⟩
    | case4 other hnil hstring hcons => rintro ⟨⟩
  · rintro ⟨names, rfl⟩
    induction names with
    | nil => rfl
    | cons _ _ ih => exact ih

theorem everyStringp_eq_true {errors : Datum} :
    everyStringp errors = .ok true ↔ ErrorsRead errors := by
  unfold everyStringp ErrorsRead
  split
  · rename_i value
    simp only [Except.ok.injEq, beq_iff_eq, Datum.string.injEq]
    refine (or_iff_left ?_).symm
    rintro ⟨names, hnames⟩
    cases names <;> cases hnames
  · rename_i hother
    rw [everyStringpList_eq_true]
    exact (or_iff_right (hother "")).symm

section Unique

variable {α : Type} {lispNameOf rustNameOf : α → String} {what : String}

theorem checkUniqueFrom_eq_ok {seen : List (String × String)} {specs : List α}
    {u : Unit} :
    checkUniqueFrom lispNameOf rustNameOf what seen specs = .ok u ↔
      (specs.map lispNameOf).Nodup ∧
        ∀ spec ∈ specs, seen.lookup (lispNameOf spec) = none := by
  induction specs generalizing seen with
  | nil => simp [checkUniqueFrom]
  | cons spec rest ih =>
      rw [List.map_cons, List.nodup_cons, List.forall_mem_cons]
      cases hprior : seen.lookup (lispNameOf spec) with
      | some prior =>
          simp only [checkUniqueFrom, hprior, manifestError, reduceCtorEq,
            false_and, and_false]
      | none =>
          simp only [checkUniqueFrom, hprior, ih, true_and]
          have hnext : ∀ other ∈ rest,
              (((lispNameOf spec, rustNameOf spec) :: seen).lookup
                  (lispNameOf other) = none ↔
                lispNameOf other ≠ lispNameOf spec ∧
                  seen.lookup (lispNameOf other) = none) := by
            intro other _
            by_cases hsame : lispNameOf other = lispNameOf spec
            · simp [hsame]
            · simp [List.lookup_cons, beq_false_of_ne hsame, hsame]
          constructor
          · rintro ⟨hdistinct, hnew⟩
            refine ⟨⟨fun hmem => ?_, hdistinct⟩, fun other hother => ?_⟩
            · obtain ⟨other, hother, hsame⟩ := List.mem_map.mp hmem
              exact ((hnext other hother).mp (hnew other hother)).1 hsame
            · exact ((hnext other hother).mp (hnew other hother)).2
          · rintro ⟨⟨hfresh, hdistinct⟩, hnew⟩
            refine ⟨hdistinct, fun other hother => ?_⟩
            refine (hnext other hother).mpr ⟨fun hsame => ?_, hnew other hother⟩
            exact hfresh (hsame ▸ List.mem_map_of_mem hother)

theorem uniqueLispNames_eq_ok {specs unique : List α} :
    checkUniqueLispNames specs lispNameOf rustNameOf what = .ok unique ↔
      unique = specs ∧ (specs.map lispNameOf).Nodup := by
  simp only [checkUniqueLispNames, LispResult.bind_eq_ok,
    checkUniqueFrom_eq_ok, List.lookup_nil, implies_true, and_true]
  constructor
  · rintro ⟨_, hdistinct, ⟨⟩⟩
    exact ⟨rfl, hdistinct⟩
  · rintro ⟨rfl, hdistinct⟩
    exact ⟨(), hdistinct, rfl⟩

end Unique

theorem validateOnDump_eq_ok_iff {m validated : Manifest} :
    validateOnDump m = .ok validated ↔ validated = m ∧ HookDeclared m := by
  unfold validateOnDump HookDeclared
  split
  · rename_i hnone
    simp only [Except.ok.injEq, hnone, Option.mem_def, reduceCtorEq,
      false_implies, implies_true, and_true]
    exact eq_comm
  · rename_i symbol hsome
    simp only [hsome, Option.mem_def, Option.some.injEq, forall_eq']
    split
    · rename_i hmissing
      simp only [manifestError, reduceCtorEq, hmissing, false_and,
        exists_false, and_false]
    · rename_i spec hfound
      simp only [hfound, Option.some.injEq]
      split
      · rename_i hshape
        rw [Except.ok.injEq, eq_comm]
        exact (and_iff_left ⟨spec, rfl, hshape⟩).symm
      · rename_i hshape
        constructor
        · rintro ⟨⟩
        · rintro ⟨-, _, rfl, hunit⟩
          exact absurd hunit hshape

/-- `parse-manifest` returns what the form describes. -/
theorem parseManifest_eq_ok (form : Datum) (m : Manifest) :
    parseManifest form = .ok m ↔ ManifestRead form m := by
  unfold parseManifest ManifestRead
  split
  · rename_i plist
    simp only [LispResult.bind_eq_ok, getfString_eq_ok, getfInt_eq_ok,
      getf_eq_ok, getfOptionalString_eq_ok, errorUnless_eq_ok,
      mapcar_eq_ok parseHandle_eq_ok, mapcar_eq_ok parseFn_eq_ok,
      uniqueLispNames_eq_ok,
      validateOnDump_eq_ok_iff, Datum.cons.injEq, true_and]
    constructor
    · rintro ⟨schema, ⟨hproper, hschema⟩, _, hsupported, abi, ⟨-, habi⟩, crate,
        ⟨-, hcrate⟩, crateVersion, ⟨-, hversion⟩, target, ⟨-, htarget⟩, pfx,
        ⟨-, hpfx⟩, errors, ⟨-, herrors⟩, strings, hstrings, _, rfl, _,
        ⟨-, rfl⟩, handles, hhandles, _, ⟨rfl, hhandleNames⟩, _, ⟨-, rfl⟩,
        functions, hfunctions, _, ⟨rfl, hfunctionNames⟩, onDump, ⟨-, hdump⟩,
        rulispVersion, ⟨-, hrulisp⟩, rfl, hhook⟩
      have hread := everyStringp_eq_true.mp hstrings
      exact ⟨plist, rfl, hproper, hschema, hsupported, habi, hcrate, hversion,
        htarget, hpfx, herrors, hread, ⟨hhandles, hhandleNames⟩,
        ⟨hfunctions, hfunctionNames⟩, hdump, hrulisp, hhook⟩
    · rintro ⟨_, rfl, hproper, hschema, hsupported, habi, hcrate, hversion,
        htarget, hpfx, herrors, hread, ⟨hhandles, hhandleNames⟩,
        ⟨hfunctions, hfunctionNames⟩, hdump, hrulisp, hhook⟩
      exact ⟨_, ⟨hproper, hschema⟩, (), hsupported, _, ⟨hproper, habi⟩, _,
        ⟨hproper, hcrate⟩, _, ⟨hproper, hversion⟩, _, ⟨hproper, htarget⟩, _,
        ⟨hproper, hpfx⟩, _, ⟨hproper, herrors⟩, true,
        everyStringp_eq_true.mpr hread, (), rfl, _, ⟨hproper, rfl⟩, _, hhandles,
        _, ⟨rfl, hhandleNames⟩, _, ⟨hproper, rfl⟩, _, hfunctions, _,
        ⟨rfl, hfunctionNames⟩, _, ⟨hproper, hdump⟩, _, ⟨hproper, hrulisp⟩, rfl,
        hhook⟩
  · rename_i hother
    constructor
    · rintro ⟨⟩
    · rintro ⟨plist, rfl, -⟩
      exact absurd rfl (hother plist)

end Accepted

end Rulisp
