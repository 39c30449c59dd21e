import Rulisp.CrateRegistry
import Rulisp.TypeShape

/-!
# The shape of a function's entry

Phase 1 makes a wrapper and a docstring for each function of the manifest.
The wrapper goes through the parameters' types and the result's; the docstring
needs the handles among them to be named by strings, where `string=` also took
symbols.
-/

namespace Rulisp

variable [LispCase]

/-! ## What a function's entry needs -/

def Param.isCallback (p : Param) : Bool := p.type.callbackTypeP

/-- `wrapper-form` accepts the entry. -/
structure WrapperRead (handles : List HandleSpec) (f : FnSpec) : Prop where
  params : ∀ p ∈ f.params, ParamType handles p.type
  callbacks : (f.params.filter Param.isCallback).length ≤ 1
  result : ResultType handles f.result

/-- Wherever `wrapper-form` comes to, the type is sound. -/
structure WrapperSound (handles : List HandleSpec) (f : FnSpec) : Prop where
  params : Reached (fun p => ParamType handles p.type)
    (fun p => TypeSound handles p.type ∧ CallbackSound p.type) f.params
  result : (∀ p ∈ f.params, ParamType handles p.type) →
    (f.params.filter Param.isCallback).length ≤ 1 → TypeSound handles f.result

/-- The docstring can name the handles. -/
def HandlesNamed (f : FnSpec) : Prop :=
  (∀ p ∈ f.params, HandleNamed p.type) ∧ HandleNamed f.result

/-- `prepare-bindings` accepts the entry. -/
structure FnBinds (image : LibraryImage) (m : Manifest) (f : FnSpec) :
    Prop where
  resolves : m.pfx ++ f.symbol ∈ image.exports
  wraps : WrapperRead m.handles f
  named : HandlesNamed f

/-- Wherever `prepare-bindings` comes to in the entry, it finds what it
needs. -/
def FnSafe (image : LibraryImage) (m : Manifest) (f : FnSpec) : Prop :=
  m.pfx ++ f.symbol ∈ image.exports →
    WrapperSound m.handles f ∧ (WrapperRead m.handles f → HandlesNamed f)

/-! ## Wrapper forms -/

section Wrapper

variable {handles : List HandleSpec} {intern : String → LispResult Symbol}

omit [LispCase] in
theorem paramForm_isCallback {classOf : Datum → LispResult Symbol} {ty : Datum}
    {form : ParamForm} (hform : paramForm classOf ty = .ok form) :
    form.isCallback = ty.callbackTypeP := by
  have hexclusive : ∀ {tag}, ty.tagged tag = true → tag ≠ "CALLBACK" →
      ty.callbackTypeP = false := by
    intro tag htag hne
    cases ty with
    | cons first rest =>
        have hfirst : first = .keyword tag := of_decide_eq_true htag
        subst hfirst
        rw [Datum.callbackTypeP, tagged_cons]
        exact decide_eq_false hne
    | _ => rfl
  unfold paramForm at hform
  split at hform
  · rename_i hstring
    subst hstring
    cases hform
    rfl
  split at hform
  · rename_i hbytes
    subst hbytes
    cases hform
    rfl
  split at hform
  · rename_i hoption
    rw [hexclusive hoption (by decide)]
    obtain ⟨inner, -, hform⟩ := LispResult.bind_eq_ok.mp hform
    split at hform
    · cases hform
      rfl
    split at hform
    · cases hform
      rfl
    · obtain ⟨cffi, -, hform⟩ := LispResult.bind_eq_ok.mp hform
      cases hform
      rfl
  split at hform
  · rename_i hvec
    rw [hexclusive hvec (by decide)]
    obtain ⟨token, -, hform⟩ := LispResult.bind_eq_ok.mp hform
    obtain ⟨elt, -, hform⟩ := LispResult.bind_eq_ok.mp hform
    cases hform
    rfl
  split at hform
  · rename_i hhandle
    rw [hexclusive hhandle (by decide)]
    obtain ⟨rustName, -, hform⟩ := LispResult.bind_eq_ok.mp hform
    obtain ⟨cls, -, hform⟩ := LispResult.bind_eq_ok.mp hform
    cases hform
    rfl
  split at hform
  · rename_i hcallback
    rw [hcallback]
    obtain ⟨trampoline, -, hform⟩ := LispResult.bind_eq_ok.mp hform
    cases hform
    rfl
  split at hform
  · rename_i hcallback hstored
    rw [Bool.not_eq_true] at hcallback
    rw [hcallback]
    obtain ⟨trampoline, -, hform⟩ := LispResult.bind_eq_ok.mp hform
    cases hform
    rfl
  · rename_i hcallback hstored
    rw [Bool.not_eq_true] at hcallback
    rw [hcallback]
    obtain ⟨cffi, -, hform⟩ := LispResult.bind_eq_ok.mp hform
    cases hform
    rfl

theorem namedParamForm_ok_iff (hintern : ∀ name, ∃ sym, intern name = .ok sym)
    (p : Param) :
    (∃ form, namedParamForm (classNameFor handles intern) p = .ok form) ↔
      ParamType handles p.type := by
  rw [namedParamForm, LispResult.bind_pure_ok_iff, paramForm_ok_iff hintern]

theorem tame_namedParamForm (hintern : ∀ name, ∃ sym, intern name = .ok sym)
    (p : Param) :
    Tame (namedParamForm (classNameFor handles intern) p) ↔
      TypeSound handles p.type ∧ CallbackSound p.type := by
  rw [namedParamForm, tame_bind_pure, tame_paramForm hintern]

theorem params_ok_iff (hintern : ∀ name, ∃ sym, intern name = .ok sym)
    {params : List Param} :
    (∃ forms, collect (namedParamForm (classNameFor handles intern)) params =
      .ok forms) ↔ ∀ p ∈ params, ParamType handles p.type :=
  collect_ok_iff fun p _ => namedParamForm_ok_iff hintern p

/-- As many callbacks among the forms as among the types. -/
theorem callbacks_length {classOf : Datum → LispResult Symbol}
    {params : List Param} {forms : List (String × ParamForm)}
    (hforms : collect (namedParamForm classOf) params = .ok forms) :
    (forms.filter (·.2.isCallback)).length =
      (params.filter Param.isCallback).length := by
  have hpairs := collect_eq_ok hforms
  clear hforms
  induction hpairs with
  | nil => rfl
  | @cons p form params forms hfirst _ ih =>
      obtain ⟨shape, hshape, hnamed⟩ := LispResult.bind_eq_ok.mp hfirst
      cases hnamed
      have hsame : shape.isCallback = p.isCallback :=
        paramForm_isCallback hshape
      rw [List.filter_cons, List.filter_cons]
      simp only [hsame]
      split
      · rw [List.length_cons, List.length_cons, ih]
      · exact ih

variable {f : FnSpec} {qualified : String}

theorem wrapperForm_ok_iff (hintern : ∀ name, ∃ sym, intern name = .ok sym) :
    (∃ form, wrapperForm (classNameFor handles intern) f qualified = .ok form) ↔
      WrapperRead handles f := by
  simp only [wrapperForm, LispResult.bind_eq_ok, errorUnless_eq_ok]
  constructor
  · rintro ⟨_, forms, hforms, _, hcallbacks, result, hresult, -⟩
    rw [callbacks_length hforms] at hcallbacks
    exact ⟨(params_ok_iff hintern).mp ⟨forms, hforms⟩, hcallbacks,
      (resultForm_ok_iff hintern _).mp ⟨result, hresult⟩⟩
  · rintro ⟨hparams, hcallbacks, hresult⟩
    obtain ⟨forms, hforms⟩ := (params_ok_iff hintern).mpr hparams
    obtain ⟨result, hresult⟩ := (resultForm_ok_iff hintern _).mpr hresult
    rw [← callbacks_length hforms] at hcallbacks
    exact ⟨_, forms, hforms, (), hcallbacks, result, hresult, rfl⟩

theorem tame_wrapperForm (hintern : ∀ name, ∃ sym, intern name = .ok sym) :
    Tame (wrapperForm (classNameFor handles intern) f qualified) ↔
      WrapperSound handles f := by
  have hwrapper : WrapperSound handles f ↔
      Reached (fun p => ParamType handles p.type)
          (fun p => TypeSound handles p.type ∧ CallbackSound p.type) f.params ∧
        ((∀ p ∈ f.params, ParamType handles p.type) →
          (f.params.filter Param.isCallback).length ≤ 1 →
            TypeSound handles f.result) :=
    ⟨fun h => ⟨h.params, h.result⟩, fun h => ⟨h.1, h.2⟩⟩
  rw [hwrapper, wrapperForm, tame_bind,
    tame_collect (fun p _ => namedParamForm_ok_iff hintern p)
      (fun p _ => tame_namedParamForm hintern p)]
  refine and_congr_right fun _ => ?_
  simp only [tame_bind, tame_errorUnless, errorUnless_eq_ok,
    tame_resultForm hintern, tame_pure, implies_true, and_true, true_and,
    forall_const]
  constructor
  · intro htame hparams hcallbacks
    obtain ⟨forms, hforms⟩ := (params_ok_iff hintern).mpr hparams
    rw [← callbacks_length hforms] at hcallbacks
    exact htame forms hforms hcallbacks
  · intro hresult forms hforms hcallbacks
    rw [callbacks_length hforms] at hcallbacks
    exact hresult ((params_ok_iff hintern).mp ⟨forms, hforms⟩) hcallbacks

end Wrapper

/-! ## Docstrings -/

section Docs

variable {packageName : String} {handles : List HandleSpec}

omit [LispCase] in
theorem reached_self {α : Type} {p : α → Prop} {xs : List α} :
    Reached p p xs ↔ ∀ x ∈ xs, p x := by
  induction xs with
  | nil =>
      refine iff_of_true (fun before x after hsplit => ?_) nofun
      cases before <;> cases hsplit
  | cons x xs ih =>
      rw [reached_cons, ih, List.forall_mem_cons]
      exact and_congr_right fun hx => ⟨fun h => h hx, fun h _ => h⟩

theorem docTypeLeaf_of_untagged {ty : Datum} (hother : ty.handleTypeP = false) :
    docTypeLeaf packageName ty = .ok [.printedDown ty] := by
  unfold docTypeLeaf
  rw [hother]
  rfl

omit [LispCase] in
theorem Datum.IsToken.handleTypeP {p : Datum} (htoken : p.IsToken) :
    p.handleTypeP = false := by
  cases p with
  | cons first rest =>
      rcases htoken with hstring | hscalar
      · cases hstring
      · exact absurd rfl hscalar
  | _ => rfl

omit [LispCase] in
theorem mapcar_ofList_ok {α : Type} {f : Datum → LispResult α}
    {data : List Datum} (hok : ∀ x ∈ data, ∃ a, f x = .ok a) :
    ∃ values, (Datum.ofList data).mapcar f = .ok values := by
  induction data with
  | nil => exact ⟨[], rfl⟩
  | cons first rest ih =>
      obtain ⟨hfirst, hrest⟩ := List.forall_mem_cons.mp hok
      obtain ⟨value, hvalue⟩ := hfirst
      obtain ⟨values, hvalues⟩ := ih hrest
      refine ⟨value :: values, ?_⟩
      rw [Datum.ofList, Datum.mapcar, hvalue, hvalues]
      rfl

/-- The parameters of a callback print. -/
theorem CallbackType.params_documented {args tag : Datum}
    (hshape : CallbackType args) (make : List Message → Message) :
    ∃ doc, ((Datum.cons tag args).cdr >>= fun args =>
      args.getf "PARAMS" >>= fun params =>
        params.mapcar (docTypeLeaf packageName) >>= fun params =>
          pure (make params)) = .ok doc := by
  obtain ⟨tokens, hparams, htokens⟩ := hshape.tokens
  obtain ⟨docs, hdocs⟩ := @mapcar_ofList_ok _ (docTypeLeaf packageName) tokens
    fun p hp => ⟨_, docTypeLeaf_of_untagged (htokens p hp).handleTypeP⟩
  have hgetf : args.getf "PARAMS" = .ok (.ofList tokens) :=
    getf_eq_ok.mpr ⟨hshape.keys.1, hparams⟩
  refine ⟨make docs, LispResult.bind_eq_ok.mpr ⟨args, rfl, ?_⟩⟩
  refine LispResult.bind_eq_ok.mpr ⟨_, hgetf, ?_⟩
  exact LispResult.bind_eq_ok.mpr ⟨docs, hdocs, rfl⟩

omit [LispCase] in
theorem handleNamed_of_ne {tag : String} {rest : Datum} (hne : tag ≠ "HANDLE") :
    HandleNamed (.cons (.keyword tag) rest) := by
  rintro _ ⟨⟩
  exact absurd rfl hne

omit [LispCase] in
theorem handleNamed_handle {rest : Datum} :
    HandleNamed (.cons (.keyword "HANDLE") rest) ↔
      ∃ name, rest.first = .string name := by
  constructor
  · intro hnamed
    exact hnamed rest rfl
  · rintro hnamed _ ⟨⟩
    exact hnamed

/-- A type whose handle, if it is one, is named by a string has a docstring,
and any other type gives a condition of the host. -/
def Documents (packageName : String) (ty : Datum) : Prop :=
  ((∃ doc, docType packageName ty = .ok doc) ↔ HandleNamed ty) ∧
    (Tame (docType packageName ty) ↔ HandleNamed ty)

theorem Documents.of_eq_ok {ty : Datum} {doc : Message}
    (hdoc : docType packageName ty = .ok doc) (hnamed : HandleNamed ty) :
    Documents packageName ty :=
  ⟨iff_of_true ⟨doc, hdoc⟩ hnamed, iff_of_true (hdoc ▸ tame_ok doc) hnamed⟩

theorem documents_keyword (name : String) :
    Documents packageName (.keyword name) :=
  .of_eq_ok rfl nofun

theorem docType_option {rest : Datum} :
    docType packageName (.cons (.keyword "OPTION") rest) =
      (Datum.cons (.keyword "OPTION") rest).second >>= fun inner =>
        docTypeLeaf packageName inner >>= fun inner =>
          pure ([.text "(:option "] ++ inner ++ [.text ")"]) :=
  rfl

theorem docType_vec {rest : Datum} :
    docType packageName (.cons (.keyword "VEC") rest) =
      (Datum.cons (.keyword "VEC") rest).second >>= fun token =>
        pure [.text "(:vec ", .namedDown token, .text ")"] :=
  rfl

theorem docType_handle {rest : Datum} :
    docType packageName (.cons (.keyword "HANDLE") rest) =
      (Datum.cons (.keyword "HANDLE") rest).second >>= fun rustName =>
        camelToKebabName rustName >>= fun name =>
          pure [.text (stringDowncase packageName ++ ":" ++ name)] :=
  rfl

theorem ValueType.documents {ty : Datum} (htype : ValueType handles ty) :
    Documents packageName ty := by
  cases htype with
  | string => exact documents_keyword _
  | bytes => exact documents_keyword _
  | scalar hscalar =>
      cases ty with
      | keyword name => exact documents_keyword name
      | _ => exact absurd rfl hscalar
  | @option rest hlist hbool hinner =>
      have hplain : rest.first.handleTypeP = false := by
        rcases hinner with htoken | hbytes
        · exact htoken.handleTypeP
        · rw [hbytes]
          rfl
      have hinner := @docTypeLeaf_of_untagged _ packageName _ hplain
      have hdoc : docType packageName (.cons (.keyword "OPTION") rest) =
          .ok ([.text "(:option "] ++ [.printedDown rest.first] ++
            [.text ")"]) := by
        rw [docType_option, second_of_isList hlist]
        exact LispResult.bind_eq_ok.mpr
          ⟨_, rfl, LispResult.bind_eq_ok.mpr ⟨_, hinner, rfl⟩⟩
      exact .of_eq_ok hdoc (handleNamed_of_ne (by decide))
  | @vec rest hlist helt =>
      have hdoc : docType packageName (.cons (.keyword "VEC") rest) =
          .ok [.text "(:vec ", .namedDown rest.first, .text ")"] := by
        rw [docType_vec, second_of_isList hlist]
        rfl
      exact .of_eq_ok hdoc (handleNamed_of_ne (by decide))
  | @handle rest hlist hnamed =>
      have hdoc : docType packageName (.cons (.keyword "HANDLE") rest) =
          camelToKebabName rest.first >>= fun name =>
            pure [.text (stringDowncase packageName ++ ":" ++ name)] := by
        rw [docType_handle, second_of_isList hlist]
        rfl
      unfold Documents
      rw [hdoc, handleNamed_handle]
      cases rest.first with
      | string name =>
          exact ⟨iff_of_true ⟨_, rfl⟩ ⟨name, rfl⟩,
            iff_of_true (tame_pure _) ⟨name, rfl⟩⟩
      | _ =>
          exact ⟨iff_of_false nofun nofun,
            iff_of_false (not_tame_hostError _) nofun⟩

theorem docType_callback {args : Datum} :
    docType packageName (.cons (.keyword "CALLBACK") args) =
      (Datum.cons (.keyword "CALLBACK") args).cdr >>= fun args =>
        args.getf "PARAMS" >>= fun params =>
          params.mapcar (docTypeLeaf packageName) >>= fun params =>
            pure ([.text "(:callback "] ++ spliced params " " ++
              [.text ")"]) :=
  rfl

theorem docType_storedCallback {args : Datum} :
    docType packageName (.cons (.keyword "STORED-CALLBACK") args) =
      (Datum.cons (.keyword "STORED-CALLBACK") args).cdr >>= fun args =>
        args.getf "PARAMS" >>= fun params =>
          params.mapcar (docTypeLeaf packageName) >>= fun params =>
            pure ([.text "(:stored-callback "] ++ spliced params " " ++
              [.text ")"]) :=
  rfl

theorem ParamType.documents {ty : Datum} (htype : ParamType handles ty) :
    Documents packageName ty := by
  cases htype with
  | value hvalue => exact hvalue.documents
  | callback hshape =>
      obtain ⟨doc, hdoc⟩ := hshape.params_documented _
      exact .of_eq_ok (docType_callback.trans hdoc)
        (handleNamed_of_ne (by decide))
  | storedCallback hshape =>
      obtain ⟨doc, hdoc⟩ := hshape.params_documented _
      exact .of_eq_ok (docType_storedCallback.trans hdoc)
        (handleNamed_of_ne (by decide))

theorem ResultType.documents {ty : Datum} (htype : ResultType handles ty) :
    Documents packageName ty := by
  cases htype with
  | unit => exact documents_keyword _
  | value hvalue => exact hvalue.documents

theorem docParam_documents {p : Param} (htype : ParamType handles p.type) :
    ((∃ doc, docParam packageName p = .ok doc) ↔ HandleNamed p.type) ∧
      (Tame (docParam packageName p) ↔ HandleNamed p.type) := by
  obtain ⟨hok, htame⟩ : Documents packageName p.type := htype.documents
  constructor
  · rw [docParam, LispResult.bind_pure_ok_iff, hok]
  · rw [docParam, tame_bind_pure, htame]

variable {f : FnSpec}

/-- The docstring of an entry that `wrapper-form` accepts. -/
theorem WrapperRead.documents (hread : WrapperRead handles f) :
    ((∃ doc, synthesizeFnDoc packageName f = .ok doc) ↔ HandlesNamed f) ∧
      (Tame (synthesizeFnDoc packageName f) ↔ HandlesNamed f) := by
  have hparams : ∀ p ∈ f.params, _ := fun p hp =>
    @docParam_documents _ packageName _ p (hread.params p hp)
  obtain ⟨hresult, htame⟩ : Documents packageName f.result :=
    hread.result.documents
  have hcollected : (∃ docs, collect (docParam packageName) f.params =
      .ok docs) ↔ ∀ p ∈ f.params, HandleNamed p.type :=
    collect_ok_iff fun p hp => (hparams p hp).1
  constructor
  · rw [HandlesNamed, ← hresult, ← hcollected]
    simp only [synthesizeFnDoc, LispResult.bind_eq_ok]
    constructor
    · rintro ⟨_, docs, hdocs, result, hresult, -⟩
      exact ⟨⟨docs, hdocs⟩, result, hresult⟩
    · rintro ⟨⟨docs, hdocs⟩, result, hresult⟩
      exact ⟨_, docs, hdocs, result, hresult, rfl⟩
  · rw [synthesizeFnDoc, tame_bind, HandlesNamed,
      tame_collect (fun p hp => (hparams p hp).1)
        (fun p hp => (hparams p hp).2),
      reached_self]
    refine and_congr_right fun hnamed => ?_
    simp only [tame_bind, htame, tame_pure, implies_true, and_true]
    constructor
    · intro hrest
      obtain ⟨docs, hdocs⟩ := hcollected.mpr hnamed
      exact hrest docs hdocs
    · exact fun hresult _ _ => hresult

end Docs

/-! ## Entry points -/

section Binding

variable {host : LoadHost} {library : Library} {crate : Crate}
  {image : LibraryImage} {m : Manifest} {ctx : GenCtx} {f : FnSpec}

omit [LispCase] in
theorem resolve_ok_iff {pfx crateName short : String} :
    (∃ ptr, image.resolve library pfx crateName short = .ok ptr) ↔
      pfx ++ short ∈ image.exports := by
  unfold LibraryImage.resolve
  split
  · rename_i hmem
    exact iff_of_true ⟨_, rfl⟩ hmem
  · rename_i hmem
    exact iff_of_false nofun hmem

omit [LispCase] in
theorem tame_resolve (pfx crateName short : String) :
    Tame (image.resolve library pfx crateName short) := by
  unfold LibraryImage.resolve
  split
  · exact tame_ok _
  · exact tame_manifestError _

theorem prepareFn_ok_iff
    (hintern : ∀ name, ∃ sym, host.intern crate.package name = .ok sym)
    (hcompile : ∀ f, host.compileRefusal f = none) :
    (∃ entry, prepareFn host crate m ctx
      (image.resolve library m.pfx crate.name) f = .ok entry) ↔
      FnBinds image m f := by
  simp only [prepareFn, LispResult.bind_eq_ok, hostStep_eq_ok, hcompile]
  constructor
  · rintro ⟨_, sym, -, ptr, hptr, form, hform, doc, hdoc, -⟩
    have hwraps := (wrapperForm_ok_iff hintern).mp ⟨form, hform⟩
    exact ⟨resolve_ok_iff.mp ⟨ptr, hptr⟩, hwraps,
      hwraps.documents.1.mp ⟨doc, hdoc⟩⟩
  · rintro ⟨hresolves, hwraps, hnamed⟩
    obtain ⟨sym, hsym⟩ := hintern (stringUpcase f.lispName)
    obtain ⟨ptr, hptr⟩ := resolve_ok_iff.mpr hresolves
    obtain ⟨form, hform⟩ := (wrapperForm_ok_iff hintern).mpr hwraps
    obtain ⟨doc, hdoc⟩ := hwraps.documents.1.mpr hnamed
    exact ⟨_, sym, hsym, ptr, hptr, form, hform, doc, hdoc, (), trivial, rfl⟩

theorem tame_prepareFn
    (hintern : ∀ name, ∃ sym, host.intern crate.package name = .ok sym)
    (hcompile : ∀ f, host.compileRefusal f = none) :
    Tame (prepareFn host crate m ctx
      (image.resolve library m.pfx crate.name) f) ↔ FnSafe image m f := by
  obtain ⟨sym, hsym⟩ := hintern (stringUpcase f.lispName)
  have hcompiled : hostStep (host.compileRefusal f) = .ok () :=
    hostStep_eq_ok.mpr (hcompile f)
  simp only [prepareFn, tame_bind, hsym, hcompiled, tame_ok, Except.ok.injEq,
    forall_eq', true_and, tame_resolve, tame_wrapperForm hintern, tame_pure,
    implies_true, and_true]
  unfold FnSafe
  rw [← @resolve_ok_iff library image m.pfx crate.name f.symbol]
  constructor
  · rintro hrest ⟨ptr, hptr⟩
    obtain ⟨hsound, hdocs⟩ := hrest ptr hptr
    refine ⟨hsound, fun hwraps => ?_⟩
    obtain ⟨form, hform⟩ := (wrapperForm_ok_iff hintern).mpr hwraps
    exact hwraps.documents.2.mp (hdocs form hform)
  · intro hsafe ptr hptr
    obtain ⟨hsound, hnamed⟩ := hsafe ⟨ptr, hptr⟩
    refine ⟨hsound, fun form hform => ?_⟩
    have hwraps := (wrapperForm_ok_iff hintern).mp ⟨form, hform⟩
    exact hwraps.documents.2.mpr (hnamed hwraps)

end Binding

end Rulisp
