import Rulisp.LifetimeRejection
import Rulisp.WireAgreement

/-!
# What the macro accepts and what the loader accepts

An entry goes from an accepted signature through the manifest's text to the
loader's parser and to `wrapper-form`.  The two sides differ in the number
of borrowed callbacks, in handle types that `module!` does not declare, and
in constructor names that end in an unpaired backslash.
-/

namespace Rulisp

open LispReader

/-! ## The loader's side of one entry -/

/-- An entry's text through the manifest reader, `parse-fn` and
`wrapper-form`. -/
def loadEntry [LispCase] (host : ReadHost) (handles : List HandleSpec)
    (intern : String → Symbol) (qualified text : String) :
    LispResult WrapperForm := do
  let object ← safeRead host text
  let form ← sanitize object
  let fspec ← parseFn form
  wrapperForm (classNameFor handles fun name => .ok (intern name)) fspec
    qualified

/-! ## Conditions on a signature -/

def Ty.isCallback : Ty → Bool
  | .path _ p => p.last.ident.text = "Callback"
  | _ => false

/-- The handle type of a parameter. -/
def Ty.paramHandle : Ty → Option Path
  | .reference _ _ (.path _ p) => if p.isIdent "str" then none else some p
  | _ => none

/-- The handle type of a success type. -/
def Ty.resultHandle : Ty → Option Path
  | .path _ p =>
      if (findScalar p.last.ident.text).isSome ||
          ["bool", "String", "Vec", "Option"].contains p.last.ident.text then
        none
      else some p
  | _ => none

def ExportItem.selfTy : ExportItem → Option Path
  | .method (.path _ selfTy) _ => some selfTy
  | _ => none

/-- The explicit name of a constructor. -/
def ExportItem.explicitName : ExportItem → Option String
  | .free _ _ => none
  | .method _ m => (m.attrs.foldl AttrState.next {}).ctorName

/-- The handle types that an item's signature names. -/
def ExportItem.handlePaths (item : ExportItem) : List Path :=
  (item.sig.receiver.toList.flatMap fun _ => item.selfTy.toList) ++
    item.sig.inputs.filterMap (fun input => input.2.paramHandle) ++
    ((splitResult item.sig.output).1.bind Ty.resultHandle).toList

/-- At most one parameter is a borrowed callback, every handle type is
declared, and an explicit name does not end in an odd number of
backslashes. -/
structure ExportItem.Loadable (item : ExportItem)
    (rustNameOf : Path → Ident) (handles : List HandleSpec) : Prop where
  callbacks : (item.sig.inputs.filter (·.2.isCallback)).length ≤ 1
  handles : ∀ p ∈ item.handlePaths, ∃ h ∈ handles,
    h.rustName = (rustNameOf p).text
  name : ∀ v ∈ item.explicitName, trailingBackslashes v.toList % 2 = 0

/-! ## Wrapper generation -/

section Forms

variable {classOf : Datum → LispResult Symbol}

theorem PTy.HasForm.paramForm {pty : PTy} {form : ParamForm}
    (hform : pty.HasForm classOf form) :
    Rulisp.paramForm classOf pty.meta.datum = .ok form := by
  cases hform with
  | scalar s => cases s <;> rfl
  | handleRef rustName cls hclass =>
      have hexpected : Rulisp.paramForm classOf (PTy.handleRef rustName).meta.datum =
          (do
            let cls ← classOf (.string rustName)
            return .handle (.string rustName) cls) :=
        rfl
      rw [hexpected, hclass]
      rfl
  | callback toks =>
      have hexpected : Rulisp.paramForm classOf (PTy.callback toks).meta.datum =
          (do
            let trampoline ← ensureTrampoline .borrowed
              (.cons (.keyword "CALLBACK") (callbackPlist toks))
            return .callback trampoline) :=
        rfl
      simp only [ensureTrampoline, checkCallbackShape_tokens] at hexpected
      exact hexpected
  | storedCallback toks =>
      have hexpected : Rulisp.paramForm classOf (PTy.storedCallback toks).meta.datum =
          (do
            let trampoline ← ensureTrampoline .stored
              (.cons (.keyword "STORED-CALLBACK") (callbackPlist toks))
            return .storedCallback trampoline) :=
        rfl
      simp only [ensureTrampoline, checkCallbackShape_tokens] at hexpected
      exact hexpected
  | optionScalar s => cases s <;> rfl
  | vecScalar s => cases s <;> rfl
  | bool | strRef | bytesRef | optionStr | optionBytes => rfl

theorem RTy.HasForm.resultForm {rty : RTy} {form : ResultForm}
    (hform : rty.HasForm classOf form) :
    Rulisp.resultForm classOf rty.meta.datum = .ok form := by
  cases hform with
  | scalar s => cases s <;> rfl
  | handle rustName cls hclass =>
      have hexpected : Rulisp.resultForm classOf (RTy.handle rustName).meta.datum =
          (do
            let cls ← classOf (.string rustName)
            return .handle (.string rustName) cls) :=
        rfl
      rw [hexpected, hclass]
      rfl
  | optionScalar s => cases s <;> rfl
  | vecScalar s => cases s <;> rfl
  | unit | bool | str | bytes | optionStr | optionBytes => rfl

/-- The class of a handle type is found. -/
def Classed (classOf : Datum → LispResult Symbol) (rustName : String) : Prop :=
  ∃ cls, classOf (.string rustName) = .ok cls

/-- A parameter has a form if its handle type has a class. -/
theorem PTy.hasForm_iff (pty : PTy) :
    (∃ form, pty.HasForm classOf form) ↔
      ∀ rustName ∈ pty.handleName, Classed classOf rustName := by
  constructor
  · rintro ⟨form, hform⟩ rustName hname
    cases hform with
    | handleRef _ cls hclass =>
        cases hname
        exact ⟨cls, hclass⟩
    | _ => cases hname
  · intro hclassed
    cases pty with
    | handleRef rustName =>
        obtain ⟨cls, hclass⟩ := hclassed rustName rfl
        exact ⟨_, .handleRef rustName cls hclass⟩
    | _ => exact ⟨_, by constructor⟩

theorem RTy.hasForm_iff (rty : RTy) :
    (∃ form, rty.HasForm classOf form) ↔
      ∀ rustName ∈ rty.handleName, Classed classOf rustName := by
  constructor
  · rintro ⟨form, hform⟩ rustName hname
    cases hform with
    | handle _ cls hclass =>
        cases hname
        exact ⟨cls, hclass⟩
    | _ => cases hname
  · intro hclassed
    cases rty with
    | handle rustName =>
        obtain ⟨cls, hclass⟩ := hclassed rustName rfl
        exact ⟨_, .handle rustName cls hclass⟩
    | _ => exact ⟨_, by constructor⟩

theorem PTy.HasForm.isCallback {pty : PTy} {form : ParamForm}
    (hform : pty.HasForm classOf form) : form.isCallback = pty.isCallback := by
  cases hform <;> rfl

/-- The parameters of an entry, as `parse-fn` returns them. -/
def paramSpecs (params : List (String × PTy)) : List Param :=
  params.map fun p => (ParamMeta.mk p.1 p.2.meta).spec

theorem namedParamForm_eq_ok [LispCase] {p : String × PTy}
    {named : String × ParamForm}
    (hnamed : namedParamForm classOf (ParamMeta.mk p.1 p.2.meta).spec =
      .ok named) : p.2.HasForm classOf named.2 := by
  obtain ⟨form, hform, hnamed⟩ := LispResult.bind_eq_ok.mp hnamed
  cases hnamed
  exact PTy.hasForm hform

/-- The loader counts the callbacks that the macro classified. -/
theorem paramForms_callbacks [LispCase] {params : List (String × PTy)}
    {forms : List (String × ParamForm)}
    (hforms : collect (namedParamForm classOf) (paramSpecs params) =
      .ok forms) :
    (forms.filter (·.2.isCallback)).length =
      (params.filter (·.2.isCallback)).length := by
  induction params generalizing forms with
  | nil =>
      cases hforms
      rfl
  | cons p rest ih =>
      obtain ⟨named, hnamed, hforms⟩ := LispResult.bind_eq_ok.mp hforms
      obtain ⟨others, hothers, hforms⟩ := LispResult.bind_eq_ok.mp hforms
      cases hforms
      simp only [List.filter_cons, (namedParamForm_eq_ok hnamed).isCallback]
      split <;> simp [ih hothers]

/-- The loop over the parameters. -/
theorem collect_paramForms_iff [LispCase] (params : List (String × PTy)) :
    (∃ forms, collect (namedParamForm classOf) (paramSpecs params) =
        .ok forms) ↔
      ∀ p ∈ params, ∀ rustName ∈ p.2.handleName, Classed classOf rustName := by
  rw [collect_ok_iff fun _ _ => Iff.rfl]
  simp only [paramSpecs, List.forall_mem_map]
  refine forall₂_congr fun p _ => ?_
  rw [namedParamForm, LispResult.bind_pure_ok_iff, ← PTy.hasForm_iff]
  constructor
  · rintro ⟨form, hform⟩
    exact ⟨form, PTy.hasForm hform⟩
  · rintro ⟨form, hform⟩
    exact ⟨form, hform.paramForm⟩

/-- `wrapper-form` of an entry, whatever its name. -/
theorem wrapperForm_iff [LispCase]
    (f : ExportedFn) (lispName qualified : String) :
    (∃ form, wrapperForm classOf
        { genMetaConst f with lispName := lispName }.spec qualified =
          .ok form) ↔
      (f.params.filter (·.2.isCallback)).length ≤ 1 ∧
      (∀ p ∈ f.params, ∀ rustName ∈ p.2.handleName,
        Classed classOf rustName) ∧
      ∀ rustName ∈ f.result.handleName, Classed classOf rustName := by
  have hspecs :
      ({ genMetaConst f with lispName := lispName } : FnMeta).spec.params =
        paramSpecs f.params := by
    simp [FnMeta.spec, genMetaConst, paramSpecs]
  rw [← collect_paramForms_iff, ← RTy.hasForm_iff]
  constructor
  · rintro ⟨form, hform⟩
    obtain ⟨forms, hforms, hform⟩ := LispResult.bind_eq_ok.mp hform
    obtain ⟨⟨⟩, hcount, hform⟩ := LispResult.bind_eq_ok.mp hform
    obtain ⟨result, hresult, -⟩ := LispResult.bind_eq_ok.mp hform
    rw [hspecs] at hforms
    rw [errorUnless_eq_ok, paramForms_callbacks hforms] at hcount
    exact ⟨hcount, ⟨forms, hforms⟩, result, RTy.hasForm hresult⟩
  · rintro ⟨hcount, ⟨forms, hforms⟩, result, hresult⟩
    rw [← paramForms_callbacks hforms] at hcount
    refine ⟨{ params := forms, result, qualified }, ?_⟩
    apply LispResult.bind_eq_ok.mpr
    refine ⟨forms, hspecs ▸ hforms, LispResult.bind_eq_ok.mpr ?_⟩
    refine ⟨(), errorUnless_eq_ok.mpr hcount, ?_⟩
    exact LispResult.bind_eq_ok.mpr ⟨result, hresult.resultForm, rfl⟩

end Forms

/-! ## The entry's text -/

/-- Tokens with an underscore that the reader leaves to the host are symbols,
as the standard syntax has it. -/
def ReadHost.NamesAreSymbols (host : ReadHost) : Prop :=
  ∀ token object, token.all isNameChar = true → '_' ∈ token →
    host.token token = .ok object →
    ∃ name, object = .symbol name ∧ name ≠ "NIL"

/-- An object that `%sanitize` refuses. -/
def Unsanitary (object : LispObject) : Prop := ∀ datum, sanitize object ≠ .ok datum

theorem unsanitary_symbol {name : String} (hname : name ≠ "NIL") :
    Unsanitary (.symbol name) := by
  intro datum hdatum
  rw [sanitize, if_neg hname] at hdatum
  cases hdatum

theorem unsanitary_mem {objects : List LispObject} {object tail : LispObject}
    (hmem : object ∈ objects) (hobject : Unsanitary object) :
    Unsanitary (.ofListTail objects tail) := by
  induction objects with
  | nil => cases hmem
  | cons first rest ih =>
      intro datum hdatum
      obtain ⟨firstDatum, hfirst, hdatum⟩ := LispResult.bind_eq_ok.mp hdatum
      obtain ⟨restDatum, hrest, -⟩ := LispResult.bind_eq_ok.mp hdatum
      rcases List.mem_cons.mp hmem with rfl | hmem
      · exact hobject firstDatum hfirst
      · exact ih hmem restDatum hrest

section Text

variable {host : ReadHost}

theorem isConstituent_of_isNameChar {c : Char} (hname : isNameChar c = true) :
    isConstituent c = true := by
  have hmatch : ∀ c' : Char, isNameChar c' = false → c ≠ c' := by
    rintro c' hc' rfl
    rw [hname] at hc'
    cases hc'
  have hspace : isWhitespace c = false := by
    have hcode : ∀ n, isNameChar (Char.ofNat n) = false → c.toNat ≠ n := by
      rintro n hn rfl
      rw [Char.ofNat_toNat, hname] at hn
      cases hn
    simp [isWhitespace, hmatch ' ' (by decide), hmatch '\n' (by decide),
      hmatch '\t' (by decide), hmatch '\r' (by decide),
      hcode 12 (by decide), hcode 127 (by decide)]
  have hbackquote : c.toNat ≠ 96 := by
    intro hcode
    have hc : c = Char.ofNat 96 := by rw [← hcode, Char.ofNat_toNat]
    exact hmatch _ (by decide) hc
  simp [isConstituent, isTerminating, isEscape, hspace, hbackquote,
    hmatch '(' (by decide), hmatch ')' (by decide), hmatch '"' (by decide),
    hmatch '\'' (by decide), hmatch ',' (by decide), hmatch ';' (by decide),
    hmatch '\\' (by decide), hmatch '|' (by decide)]

/-- What a name with an underscore is read as, if at all. -/
theorem finishToken_name (hhost : ReadHost.NamesAreSymbols host)
    {token : List Char} (hname : token.all isNameChar = true)
    (hunderscore : '_' ∈ token) {stack : List LispReader.Frame}
    {progress : Progress}
    (hfinish : finishToken host stack token = .ok progress) :
    ∃ object, Unsanitary object ∧ push stack object .between = .ok progress := by
  have hdot : token ≠ ['.'] := by
    rintro rfl
    simp at hunderscore
  unfold finishToken at hfinish
  rw [if_neg hdot] at hfinish
  cases hplain : plainToken token with
  | none =>
      rw [hplain] at hfinish
      simp only at hfinish
      split at hfinish
      · cases hfinish
      · rename_i object hobject
        obtain ⟨name, rfl, hne⟩ := hhost token object hname hunderscore hobject
        exact ⟨_, unsanitary_symbol hne, hfinish⟩
  | some object =>
      rw [hplain] at hfinish
      refine ⟨object, ?_, hfinish⟩
      cases token with
      | nil => cases hplain
      | cons first rest =>
          have hdigits : (first :: rest).all Char.isDigit = false := by
            rw [Bool.eq_false_iff]
            intro hall
            have hdigit := List.all_eq_true.mp hall '_' hunderscore
            exact absurd hdigit (by decide)
          have hcolon : first ≠ ':' := by
            rintro rfl
            simp only [List.all_cons, Bool.and_eq_true] at hname
            exact absurd hname.1 (by decide)
          simp only [plainToken, hdigits, Bool.false_eq_true, if_false,
            if_neg hcolon] at hplain
          split at hplain
          · cases hplain
          split at hplain
          · cases hplain
          split at hplain
          · cases hplain
            apply unsanitary_symbol
            intro hnil
            have hmem : '_' ∈ (upcase (first :: rest)).toList := by
              rw [upcase, String.toList_ofList]
              exact List.mem_map.mpr ⟨'_', hunderscore, by decide⟩
            rw [hnil] at hmem
            exact absurd hmem (by decide)
          · cases hplain

/-- A name right after a string, before another. -/
theorem run_name (hhost : ReadHost.NamesAreSymbols host) {name : String}
    (hname : IsName name) (hunderscore : '_' ∈ name.toList)
    (hraw : '#' ∉ name.toList) {elems : List LispObject}
    {rest : List Char} {object : LispObject}
    (hrun : run host (.reading [.elements elems] .between)
      (name.toList ++ '"' :: rest) = .ok object) :
    Unsanitary object := by
  cases hchars : name.toList with
  | nil =>
      rw [hchars] at hunderscore
      cases hunderscore
  | cons c chars =>
      have hall : (c :: chars).all isNameChar = true := hchars ▸ hname
      have hconstituents : ∀ other ∈ c :: chars, isConstituent other = true :=
        fun other hother =>
          isConstituent_of_isNameChar (List.all_eq_true.mp hall other hother)
      have hstart : run host (.reading [.elements elems] .between)
          (c :: (chars ++ '"' :: rest)) =
            run host (.reading [.elements elems] (.inToken [c]))
              (chars ++ '"' :: rest) := by
        have hc := hconstituents c List.mem_cons_self
        have hsharp : c ≠ '#' := by
          rintro rfl
          exact hraw (hchars ▸ List.mem_cons_self)
        simp only [isConstituent, Bool.and_eq_true, Bool.not_eq_true'] at hc
        have hnone := hc.1
        simp only [isTerminating, Bool.or_eq_false_iff,
          decide_eq_false_iff_not] at hnone
        rw [run_cons]
        simp [step, start, hc.1, hc.2, hnone, hsharp]
      rw [hchars, List.cons_append, hstart, run_inToken [c] fun other hother =>
        hconstituents other (List.mem_cons_of_mem c hother), run_cons] at hrun
      have hquote : isTerminating '"' = true := by decide
      simp only [step, hquote, if_true, List.singleton_append] at hrun
      cases hfinish : finishToken host [.elements elems] (c :: chars) with
      | error e =>
          rw [hfinish] at hrun
          cases hrun
      | ok progress =>
          obtain ⟨symbol, hsymbol, hpush⟩ :=
            finishToken_name hhost hall (hchars ▸ hunderscore) hfinish
          cases hpush
          rw [hfinish] at hrun
          simp only at hrun
          split at hrun
          · cases hrun
          · rename_i progress hstart
            obtain ⟨tail, rfl⟩ :=
              start_completes hstart (run_completes hrun)
            exact unsanitary_mem (by simp) hsymbol

variable {handles : List HandleSpec} {intern : String → Symbol}
  {qualified : String}

theorem safeRead_eq_ok {text : String} {object : LispObject} :
    safeRead host text = .ok object ↔
      readFromString host text = .ok object := by
  unfold safeRead
  cases readFromString host text with
  | error e => simp [manifestError]
  | ok object' => simp

variable {case : CaseMapping} (e : Export)

/-- An entry whose name is read as some string gets to `wrapper-form`. -/
theorem loadEntry_unescaped [LispCase] {value : List Char}
    (hvalue : unescape (e.lispName case).toList = some value) :
    loadEntry host handles intern qualified
        (renderFn (genMetaConst (e.exported case))) =
      wrapperForm (classNameFor handles fun name => .ok (intern name))
        { genMetaConst (e.exported case) with
          lispName := .ofList value }.spec qualified := by
  have hname : Writes host
      ("\"" ++ (genMetaConst (e.exported case)).lispName ++ "\"")
      [.string (.ofList value)] :=
    ⟨_, .unescaped e.lispName_quote hvalue, .cons rfl .nil⟩
  obtain ⟨body, data, htext, ⟨objects, hreads, hdata⟩, hdatum⟩ :=
    renderFn_body e.plainFields hname
  have hread := readFromString_list "" hreads
  rw [String.append_empty, ← htext] at hread
  simp only [loadEntry, safeRead_eq_ok.mpr hread, sanitize_ofListTail hdata,
    ← hdatum, parseFn_datum, bind, Except.bind]

/-- After a name that ends in an unpaired backslash, the symbol's text is
read outside of its quotes. -/
theorem loadEntry_pending [LispCase] (hhost : ReadHost.NamesAreSymbols host)
    (hraw : '#' ∉ (e.symbol case).toList)
    (hunderscore : '_' ∈ (e.symbol case).toList)
    (hpending : unescape (e.lispName case).toList = none) (form : WrapperForm) :
    loadEntry host handles intern qualified
      (renderFn (genMetaConst (e.exported case))) ≠ .ok form := by
  intro hload
  obtain ⟨object, hobject, hload⟩ := LispResult.bind_eq_ok.mp hload
  obtain ⟨datum, hdatum, -⟩ := LispResult.bind_eq_ok.mp hload
  rw [safeRead_eq_ok] at hobject
  obtain ⟨more, htext⟩ := renderFn_symbol (genMetaConst (e.exported case))
  have hrustName : Plain (genMetaConst (e.exported case)).rustName :=
    e.plainFields.rustName
  obtain ⟨head, hhead, -⟩ : Writes host _ _ := fnHead_writes hrustName
  have hsymbol : (genMetaConst (e.exported case)).symbol = e.symbol case := rfl
  have hname : (genMetaConst (e.exported case)).lispName = e.lispName case := rfl
  have hchars : (renderFn (genMetaConst (e.exported case))).toList =
      '(' :: ((fnHead (genMetaConst (e.exported case))).toList ++
        (" ".toList ++ '"' :: ((e.lispName case).toList ++
          '"' :: (" :symbol ".toList ++ '"' :: ((e.symbol case).toList ++
            '"' :: more.toList))))) := by
    rw [htext, hsymbol, hname]
    simp only [String.toList_append, String.reduceToList, List.append_assoc,
      List.cons_append, List.nil_append]
  unfold readFromString at hobject
  obtain ⟨value, hvalue⟩ :=
    @run_inString_pending host [.elements head] (e.lispName case).toList
      (" :symbol ".toList ++ '"' :: ((e.symbol case).toList ++
        '"' :: more.toList)) e.lispName_quote hpending []
  have hplain : ∀ c ∈ " :symbol ".toList, c ≠ '"' ∧ c ≠ '\\' := by simp
  rw [hchars, run_open, hhead.before_separator separator_space, run_openString,
    List.nil_append, hvalue, run_inString_plain _ hplain, run_closeString]
    at hobject
  exact run_name hhost e.symbol_isName hunderscore hraw hobject datum hdatum

end Text

/-! ## The macro's side -/

section Macro

variable {rustNameOf : Path → Ident}

theorem classifyReference_handle {isMut : Bool} {lifetime : Option String}
    {elem : Ty} {pty : PTy}
    (hreference : classifyReference rustNameOf isMut elem = .ok pty) :
    pty.isCallback = false ∧
      pty.handleName = (Ty.reference lifetime isMut elem).paramHandle.map
        fun p => (rustNameOf p).text := by
  unfold classifyReference at hreference
  split at hreference
  · cases hreference
  · split at hreference
    · split at hreference
      · cases hreference
        exact ⟨rfl, rfl⟩
      · split at hreference
        · cases hreference
          exact ⟨rfl, rfl⟩
        · cases hreference
    · split at hreference
      · rename_i hstr
        cases hreference
        exact ⟨rfl, by simp [PTy.handleName, Ty.paramHandle, hstr]⟩
      · rename_i hstr
        cases hreference
        exact ⟨rfl, by simp [PTy.handleName, Ty.paramHandle, hstr]⟩
    · cases hreference

/-- A borrowed callback and a handle show in the parameter's type. -/
theorem classifyParam_shape {ty : Ty} {pty : PTy}
    (hclassify : classifyParam rustNameOf ty = .ok pty) :
    pty.isCallback = ty.isCallback ∧
      pty.handleName = ty.paramHandle.map fun p => (rustNameOf p).text := by
  rcases classifyParam_cases hclassify with
    ⟨lifetime, isMut, elem, rfl, hreference⟩ |
    ⟨qself, leadingColon, init, ident, arguments, rfl, hpath⟩
  · exact classifyReference_handle hreference
  · have hcallback : (Ty.path qself (.mk leadingColon init
        (.mk ident arguments))).isCallback =
          decide (ident.text = "Callback") :=
      rfl
    rw [hcallback]
    rcases hpath with ⟨s, hname, rfl⟩ | ⟨hname, rfl⟩ | ⟨hname, hcallback⟩ |
      ⟨hname, hcallback⟩ | ⟨hname, hoption⟩
    · have hnone : s.name ≠ "Callback" := by
        cases s <;> decide
      simp [PTy.isCallback, PTy.handleName, Ty.paramHandle, hname, hnone]
    · simp [PTy.isCallback, PTy.handleName, Ty.paramHandle, hname]
    · obtain ⟨_, _, -, -, rfl⟩ := classifyCallback_eq_ok hcallback
      simp [PTy.isCallback, PTy.handleName, Ty.paramHandle, hname]
    · obtain ⟨_, _, -, -, rfl⟩ := classifyCallback_eq_ok hcallback
      simp [PTy.isCallback, PTy.handleName, Ty.paramHandle, hname]
    · obtain ⟨_, _, inner, -, -, hof⟩ := classifyOption_eq_ok hoption
      rw [hname]
      cases inner <;> cases hof <;> exact ⟨rfl, rfl⟩

theorem classifyResult_shape {ctor : Bool} {ty : Option Ty} {rty : RTy}
    (hclassify : classifyResult rustNameOf ctor ty = .ok rty) :
    rty.handleName = (ty.bind Ty.resultHandle).map
      fun p => (rustNameOf p).text := by
  cases ty with
  | none =>
      cases hclassify
      rfl
  | some ty =>
      cases ty with
      | tuple elems =>
          simp only [classifyResult, classifyResultTy] at hclassify
          split at hclassify
          · cases hclassify
            rfl
          · cases hclassify
      | path qself p =>
          obtain ⟨leadingColon, init, ⟨ident, arguments⟩⟩ := p
          have hhandle : (Ty.path qself (.mk leadingColon init
              (.mk ident arguments))).resultHandle =
                if (findScalar ident.text).isSome ||
                    ["bool", "String", "Vec", "Option"].contains ident.text then
                  none
                else some (.mk leadingColon init (.mk ident arguments)) :=
            rfl
          rw [Option.bind_some, hhandle]
          simp only [classifyResult, classifyResultTy] at hclassify
          cases hscalar : findScalar ident.text with
          | some s =>
              simp only [hscalar] at hclassify
              cases hclassify
              rfl
          | none =>
              simp only [hscalar] at hclassify
              split at hclassify
              · rename_i hname
                cases hclassify
                simp [RTy.handleName, hname]
              split at hclassify
              · rename_i hname
                cases hclassify
                simp [RTy.handleName, hname]
              split at hclassify
              · rename_i hname
                unfold classifyVec at hclassify
                split at hclassify
                · split at hclassify
                  · cases hclassify
                    simp [RTy.handleName, hname]
                  · split at hclassify
                    · cases hclassify
                      simp [RTy.handleName, hname]
                    · cases hclassify
                · cases hclassify
              split at hclassify
              · rename_i hname
                unfold classifyOptionResult at hclassify
                split at hclassify
                · obtain ⟨inner, -, hof⟩ := MacroResult.bind_eq_ok.mp hclassify
                  cases inner <;> cases hof <;> simp [RTy.handleName, hname]
                · cases hclassify
              split at hclassify
              · rename_i hbool hstring hvec hoption _
                cases hclassify
                simp [RTy.handleName, hbool, hstring, hvec, hoption]
              · cases hclassify
      | _ => cases hclassify

/-- The parameters of an accepted signature, as the loader will see them. -/
structure ParamsOf (rustNameOf : Path → Ident) (selfTy : Option Path)
    (sig : Signature) (params : List (String × PTy)) : Prop where
  names : ∀ p ∈ params, IsName p.1
  callbacks : (params.filter (·.2.isCallback)).length =
    (sig.inputs.filter (·.2.isCallback)).length
  handles : params.filterMap (·.2.handleName) =
    ((sig.receiver.toList.flatMap fun _ => selfTy.toList) ++
      sig.inputs.filterMap fun input => input.2.paramHandle).map
        fun p => (rustNameOf p).text

theorem fnParams_paramsOf {selfTy : Option Path} {sig : Signature}
    {params : List (String × PTy)}
    (hparams : fnParams rustNameOf selfTy sig = .ok params) :
    ParamsOf rustNameOf selfTy sig params := by
  obtain ⟨self, typed, rfl, hself, htyped⟩ := fnParams_eq_ok hparams
  have hreceiver : (∀ p ∈ self, IsName p.1) ∧
      self.filter (·.2.isCallback) = [] ∧
      self.filterMap (·.2.handleName) =
        (sig.receiver.toList.flatMap fun _ => selfTy.toList).map
          fun p => (rustNameOf p).text := by
    clear htyped hparams
    generalize sig.receiver.toList = receivers at hself ⊢
    induction hself with
    | nil => simp
    | cons hfirst _ ih =>
        obtain ⟨⟨path, rfl, rfl⟩, -⟩ := receiverParam_eq_ok hfirst
        obtain ⟨hnames, hcallbacks, hhandles⟩ := ih
        have hselfName : IsName "self" := by decide
        refine ⟨List.forall_mem_cons.mpr ⟨hselfName, hnames⟩, ?_, ?_⟩
        · simpa [PTy.isCallback] using hcallbacks
        · simpa [PTy.handleName] using hhandles
  have hinputs : (∀ p ∈ typed, IsName p.1) ∧
      (typed.filter (·.2.isCallback)).length =
        (sig.inputs.filter (·.2.isCallback)).length ∧
      typed.filterMap (·.2.handleName) =
        (sig.inputs.filterMap fun input => input.2.paramHandle).map
          fun p => (rustNameOf p).text := by
    clear hself hreceiver hparams
    generalize sig.inputs = inputs at htyped ⊢
    induction htyped with
    | nil => simp
    | @cons input _ _ _ hfirst _ ih =>
        obtain ⟨pat, -, hname, hclassify⟩ := typedParam_eq_ok hfirst
        obtain ⟨hcallback, hhandle⟩ := classifyParam_shape hclassify
        obtain ⟨hnames, hcallbacks, hhandles⟩ := ih
        refine ⟨List.forall_mem_cons.mpr ⟨hname ▸ pat.isName, hnames⟩, ?_, ?_⟩
        · simp only [List.filter_cons, hcallback]
          split <;> simp [hcallbacks]
        · simp only [List.filterMap_cons, hhandle]
          cases input.2.paramHandle <;> simp [hhandles]
  constructor
  · intro p hp
    rcases List.mem_append.mp hp with hmem | hmem
    · exact hreceiver.1 p hmem
    · exact hinputs.1 p hmem
  · rw [List.filter_append, hreceiver.2.1, List.nil_append, hinputs.2.1]
  · rw [List.filterMap_append, hreceiver.2.2, hinputs.2.2, List.map_append]

end Macro

/-! ## Accepted items -/

section Items

variable {rustNameOf : Path → Ident} {case : CaseMapping} {pfx : String}

theorem AttrState.ctorName_isCtor (attrs : List (List MetaItem)) :
    (attrs.foldl AttrState.next {}).isCtor = false →
      (attrs.foldl AttrState.next {}).ctorName = none := by
  have hfold : ∀ state : AttrState,
      (state.isCtor = false → state.ctorName = none) →
      (attrs.foldl AttrState.next state).isCtor = false →
        (attrs.foldl AttrState.next state).ctorName = none := by
    induction attrs with
    | nil => exact fun _ hstate => hstate
    | cons items rest ih =>
        intro state hstate
        apply ih
        unfold AttrState.next
        split
        · exact hstate
        · split
          · exact hstate
          · split
            · intro hfalse
              cases hfalse
            · exact hstate
  exact hfold {} fun _ => rfl

theorem AttrState.check_eq_ok {state : AttrState}
    (hcheck : state.check = .ok ()) :
    ∀ v ∈ state.ctorName, constructorNameBad v = false := by
  intro v hv
  unfold AttrState.check at hcheck
  split at hcheck
  · cases hcheck
  · rename_i hnone
    rw [hnone] at hv
    cases hv
  · rename_i v' _ hname
    rw [hname] at hv
    cases hv
    split at hcheck
    · cases hcheck
    · rename_i hgood
      exact eq_false_of_ne_true hgood

theorem splitResult_isName {output : Option Ty} {e : String}
    (herror : (splitResult output).2 = some e) : IsName e := by
  have hempty : IsName "" := by decide
  unfold splitResult at herror
  split at herror
  · cases herror
  · split at herror
    · split at herror
      · split at herror
        · rename_i err _
          cases herror
          unfold errorName
          split
          · exact Ident.isName _
          · exact hempty
        · cases herror
      · cases herror
    · cases herror
  · cases herror

theorem ParamsOf.isName {selfTy : Option Path} {sig : Signature}
    {params : List (String × PTy)}
    (hparams : ParamsOf rustNameOf selfTy sig params) :
    ∀ p ∈ params, ∀ rustName ∈ p.2.handleName, IsName rustName := by
  intro p hp rustName hname
  have hmem : rustName ∈ params.filterMap (·.2.handleName) :=
    List.mem_filterMap.mpr ⟨p, hp, hname⟩
  rw [hparams.handles] at hmem
  obtain ⟨path, -, rfl⟩ := List.mem_map.mp hmem
  exact (rustNameOf path).isName

theorem classifyResult_isName {ctor : Bool} {ty : Option Ty} {rty : RTy}
    (hclassify : classifyResult rustNameOf ctor ty = .ok rty) :
    ∀ rustName ∈ rty.handleName, IsName rustName := by
  intro rustName hname
  rw [classifyResult_shape hclassify] at hname
  obtain ⟨path, -, rfl⟩ := Option.map_eq_some_iff.mp hname
  exact (rustNameOf path).isName

/-- What is exported of an accepted item. -/
structure ExportedAs (rustNameOf : Path → Ident) (case : CaseMapping)
    (item : ExportItem) (f : ExportedFn) (e : Export) : Prop where
  exported : e.exported case = f
  explicitName : e.kind.explicitName = item.explicitName
  raw : '#' ∉ f.symbol.toList
  params : ParamsOf rustNameOf item.selfTy item.sig f.params
  result : f.result.handleName =
    ((splitResult item.sig.output).1.bind Ty.resultHandle).map
      fun p => (rustNameOf p).text

theorem exportItem_exportedAs {item : ExportItem} {f : ExportedFn}
    {shim : Shim}
    (hitem : exportItem rustNameOf case pfx item = .ok (f, shim)) :
    ∃ e, ExportedAs rustNameOf case item f e := by
  cases item with
  | free docs sig =>
      obtain ⟨params, hparams, hitem⟩ := MacroResult.bind_eq_ok.mp hitem
      obtain ⟨result, hresult, hitem⟩ := MacroResult.bind_eq_ok.mp hitem
      obtain ⟨rfl, -, hraw⟩ := expand_eq_ok hitem
      have hof := fnParams_paramsOf hparams
      let e : Export :=
        { doc := docOf docs
          name := sig.ident.text
          kind := .free
          params := params
          result := result
          error := (splitResult sig.output).2
          isName := sig.ident.isName
          selfTy := by simp [ExportKind.selfTy]
          explicitName := by simp [ExportKind.explicitName]
          paramNames := hof.names
          paramHandles := hof.isName
          resultHandle := classifyResult_isName hresult
          errorName := fun _ => splitResult_isName }
      exact ⟨e, rfl, rfl, hraw, hof, classifyResult_shape hresult⟩
  | method selfTy m =>
      cases selfTy with
      | path qself selfTy =>
          obtain ⟨⟨⟩, hcheck, hitem⟩ := MacroResult.bind_eq_ok.mp hitem
          obtain ⟨⟨⟩, -, hitem⟩ := MacroResult.bind_eq_ok.mp hitem
          obtain ⟨params, hparams, hitem⟩ := MacroResult.bind_eq_ok.mp hitem
          obtain ⟨result, hresult, hitem⟩ := MacroResult.bind_eq_ok.mp hitem
          obtain ⟨rfl, -, hraw⟩ := expand_eq_ok hitem
          have hof := fnParams_paramsOf hparams
          have hname := AttrState.check_eq_ok hcheck
          have hctor := AttrState.ctorName_isCtor m.attrs
          generalize hattrs : m.attrs.foldl AttrState.next {} = attrs at *
          let e : Export :=
            { doc := docOf m.docs
              name := m.sig.ident.text
              kind :=
                if attrs.isCtor then
                  .constructor selfTy.last.ident.text attrs.ctorName
                else .method selfTy.last.ident.text
              params := params
              result := result
              error := (splitResult m.sig.output).2
              isName := m.sig.ident.isName
              selfTy := by
                intro name hmem
                have hself := selfTy.last.ident.isName
                split at hmem <;> cases hmem <;> exact hself
              explicitName := by
                intro v hmem
                split at hmem
                · exact hname v hmem
                · cases hmem
              paramNames := hof.names
              paramHandles := hof.isName
              resultHandle := classifyResult_isName hresult
              errorName := fun _ => splitResult_isName }
          refine ⟨e, ?_, ?_, hraw, hof, classifyResult_shape hresult⟩
          · unfold Export.exported Method.exported Export.lispName Export.symbol
            cases hisCtor : attrs.isCtor with
            | true =>
                cases hexplicit : attrs.ctorName with
                | none => simp [e, hisCtor, hexplicit]
                | some v => simp [e, hisCtor, hexplicit]
            | false => simp [e, hisCtor, hctor hisCtor]
          · have hexplicit : (ExportItem.method (.path qself selfTy)
                m).explicitName = attrs.ctorName := by
              rw [← hattrs]
              rfl
            rw [hexplicit]
            cases hisCtor : attrs.isCtor with
            | true => simp [e, hisCtor, ExportKind.explicitName]
            | false =>
                simp [e, hisCtor, ExportKind.explicitName, hctor hisCtor]
      | _ => cases hitem

end Items

/-! ## Acceptance -/

theorem classed_iff [LispCase]
    (handles : List HandleSpec) (intern : String → Symbol)
    (rustName : String) :
    Classed (classNameFor handles fun name => .ok (intern name)) rustName ↔
      ∃ h ∈ handles, h.rustName = rustName := by
  constructor
  · rintro ⟨cls, hclass⟩
    obtain ⟨h, hmem, htoken, -⟩ := classNameFor_eq_ok hclass
    cases htoken
    exact ⟨h, hmem, rfl⟩
  · rintro ⟨h, hmem, rfl⟩
    have hfound : (handles.find? fun h' => h'.rustName == h.rustName).isSome := by
      rw [List.find?_isSome]
      exact ⟨h, hmem, by simp⟩
    obtain ⟨found, hfind⟩ := Option.isSome_iff_exists.mp hfound
    refine ⟨intern (stringUpcase found.lispName), ?_⟩
    cases handles with
    | nil => cases hmem
    | cons first rest =>
        simp only [classNameFor, Datum.stringDesignator, hfind]

/-- The name's condition is about the name that is read. -/
theorem ExportedAs.unescape_iff {rustNameOf : Path → Ident}
    {case : CaseMapping} {item : ExportItem} {f : ExportedFn} {e : Export}
    (hexported : ExportedAs rustNameOf case item f e) :
    unescape (e.lispName case).toList = none ↔
      ∃ v ∈ item.explicitName, trailingBackslashes v.toList % 2 = 1 := by
  rw [← hexported.explicitName]
  constructor
  · intro hpending
    have hescape : '\\' ∈ (e.lispName case).toList := by
      by_contra hnone
      have hplain : ∀ chars : List Char, '\\' ∉ chars →
          unescape chars ≠ none := by
        intro chars
        induction chars with
        | nil => simp [unescape]
        | cons c rest ih =>
            intro hclean
            have hc : c ≠ '\\' := fun heq => hclean (by simp [heq])
            rw [unescape.eq_def]
            simp only [if_neg hc]
            simpa using ih fun hmem => hclean (List.mem_cons_of_mem c hmem)
      exact hplain _ hnone hpending
    obtain ⟨v, hv, -⟩ := e.lispName_escape.mp hescape
    rw [e.lispName_explicit hv] at hpending
    exact ⟨v, hv, (unescape_eq_none_iff _).mp hpending⟩
  · rintro ⟨v, hv, hodd⟩
    rw [e.lispName_explicit hv]
    exact (unescape_eq_none_iff _).mpr hodd

theorem ExportedAs.underscore {rustNameOf : Path → Ident}
    {case : CaseMapping} {item : ExportItem} {f : ExportedFn} {e : Export}
    (hexported : ExportedAs rustNameOf case item f e) {v : String}
    (hv : item.explicitName = some v) : '_' ∈ (e.symbol case).toList := by
  rw [← hexported.explicitName] at hv
  cases hkind : e.kind with
  | constructor selfTy name => simp [Export.symbol, hkind]
  | _ =>
      rw [hkind] at hv
      cases hv

/-- The entry of an accepted item is accepted exactly if the item is
loadable, by any host that reads names as symbols. -/
theorem macro_acceptance_iff [LispCase] (rustNameOf : Path → Ident)
    (case : CaseMapping) (pfx : String) (item : ExportItem) (f : ExportedFn)
    (shim : Shim)
    (hitem : exportItem rustNameOf case pfx item = .ok (f, shim))
    (host : ReadHost) (hhost : ReadHost.NamesAreSymbols host)
    (handles : List HandleSpec) (intern : String → Symbol)
    (qualified : String) :
    (∃ form, loadEntry host handles intern qualified
        (renderFn (genMetaConst f)) = .ok form) ↔
      item.Loadable rustNameOf handles := by
  obtain ⟨e, hexported⟩ := exportItem_exportedAs hitem
  have hunescape := hexported.unescape_iff
  have hunderscore := fun {v} => @ExportedAs.underscore _ _ _ _ _ hexported v
  have hraw := hexported.raw
  obtain ⟨rfl, -, -, hparams, hresult⟩ := hexported
  cases hname : unescape (e.lispName case).toList with
  | none =>
      obtain ⟨v, hv, hodd⟩ := hunescape.mp hname
      constructor
      · rintro ⟨form, hform⟩
        exact absurd hform
          (loadEntry_pending e hhost hraw (hunderscore hv) hname form)
      · intro hloadable
        have heven := hloadable.name v hv
        omega
  | some value =>
      rw [loadEntry_unescaped e hname, wrapperForm_iff]
      simp only [classed_iff]
      have hhandles : (∀ p ∈ (e.exported case).params,
          ∀ rustName ∈ p.2.handleName,
            ∃ h ∈ handles, h.rustName = rustName) ↔
          ∀ rustName ∈ (e.exported case).params.filterMap (·.2.handleName),
            ∃ h ∈ handles, h.rustName = rustName := by
        simp only [List.mem_filterMap]
        constructor
        · rintro hdeclared rustName ⟨p, hp, hname⟩
          exact hdeclared p hp rustName hname
        · intro hdeclared p hp rustName hname
          exact hdeclared rustName ⟨p, hp, hname⟩
      rw [hhandles, hparams.handles, hparams.callbacks, hresult]
      constructor
      · rintro ⟨hcount, hparamsDeclared, hresultDeclared⟩
        refine ⟨hcount, ?_, ?_⟩
        · intro p hp
          rcases List.mem_append.mp hp with hmem | hmem
          · exact hparamsDeclared _ (List.mem_map.mpr ⟨p, hmem, rfl⟩)
          · have hsome := Option.mem_toList.mp hmem
            exact hresultDeclared _ (by rw [hsome]; rfl)
        · intro v hv
          by_contra hodd
          have hnone := hunescape.mpr ⟨v, hv, by omega⟩
          rw [hname] at hnone
          cases hnone
      · intro hloadable
        refine ⟨hloadable.callbacks, ?_, ?_⟩
        · intro rustName hmem
          obtain ⟨p, hp, rfl⟩ := List.mem_map.mp hmem
          exact hloadable.handles p (List.mem_append_left _ hp)
        · intro rustName hmem
          obtain ⟨p, hp, rfl⟩ := Option.map_eq_some_iff.mp hmem
          apply hloadable.handles p
          exact List.mem_append_right _ (Option.mem_toList.mpr hp)

def demoIntern (name : String) : Symbol where
  home := "DEMO"
  name := name

attribute [local instance] standardCase

/-- `#[rulisp::handle] pub struct Bag`. -/
def bagHandle : HandleSpec where
  rustName := "Bag"
  lispName := "bag"
  free := "bag_free"
  doc := none

/-- Whether the entry of an accepted item is accepted. -/
def itemLoads (item : ExportItem) : Option Bool :=
  (exportItem (fun p => p.last.ident) asciiCase "demo_rulisp_"
    item).toOption.map fun (f, _) =>
      (loadEntry plainHost [bagHandle] demoIntern "demo:entry"
        (renderFn (genMetaConst f))).toOption.isSome

theorem plainHost_namesAreSymbols : ReadHost.NamesAreSymbols plainHost := by
  intro token object _ _ hobject
  cases hobject

/-- `scan` has one callback, and its handle type is declared. -/
theorem macro_acceptance_iff_scan :
    ∃ f shim, exportItem (fun p => p.last.ident) asciiCase "demo_rulisp_"
        scanItem = .ok (f, shim) ∧
      ((∃ form, loadEntry plainHost [bagHandle] demoIntern "demo:bag-scan"
          (renderFn (genMetaConst f)) = .ok form) ↔
        scanItem.Loadable (fun p => p.last.ident) [bagHandle]) ∧
      scanItem.Loadable (fun p => p.last.ident) [bagHandle] := by
  have haccepted : (exportItem (fun p => p.last.ident) asciiCase "demo_rulisp_"
      scanItem).toOption.isSome = true := by decide +kernel
  obtain ⟨⟨f, shim⟩, hitem⟩ := MacroResult.exists_ok haccepted
  refine ⟨f, shim, hitem, macro_acceptance_iff _ _ _ _ _ _ hitem plainHost
    plainHost_namesAreSymbols [bagHandle] demoIntern "demo:bag-scan", ?_⟩
  constructor
  · decide +kernel
  · have hhandles : (scanItem.handlePaths.map
        fun p => p.last.ident.text) = ["Bag"] := by decide +kernel
    intro p hp
    have hmem := List.mem_map_of_mem (f := fun p : Path => p.last.ident.text) hp
    rw [hhandles, List.mem_singleton] at hmem
    exact ⟨bagHandle, List.mem_singleton_self _, hmem.symm⟩
  · have hname : scanItem.explicitName = none := by decide +kernel
    intro v hv
    rw [hname] at hv
    cases hv

/-! ## Accepted and not loaded -/

/-- `Callback<(i32,), ()>`. -/
def i32Callback : Ty :=
  .path none (.mk false [] (.mk ⟨"Callback", isName_callback⟩
    (.angleBracketed
      [.type (.tuple [.ofName ⟨"i32", isName_i32⟩]), .type (.tuple [])])))

/-- `pub fn pair(first: Callback<(i32,), ()>, second: Callback<(i32,), ()>)`. -/
def pairItem : ExportItem :=
  .free []
    { ident := ⟨"pair", by decide⟩
      receiver := none
      inputs := [(some ⟨"first", by decide⟩, i32Callback),
        (some ⟨"second", by decide⟩, i32Callback)]
      output := none }

/-- `pub fn count(cup: &Cup) -> u64`, of a handle type that `module!` does
not declare. -/
def countItem : ExportItem :=
  .free []
    { ident := ⟨"count", by decide⟩
      receiver := none
      inputs := [(some ⟨"cup", by decide⟩,
        .reference none false (.ofName ⟨"Cup", by decide⟩))]
      output := some (.ofName ⟨"u64", by decide⟩) }

/-- `#[rulisp(constructor, name = "make\\")] pub fn new() -> Bag`. -/
def backslashItem : ExportItem :=
  .method (.ofName ⟨"Bag", isName_bag⟩)
    { docs := []
      attrs := [[.constructor, .name "make\\"]]
      sig :=
        { ident := ⟨"new", isName_new⟩
          receiver := none
          inputs := []
          output := some (.ofName ⟨"Bag", isName_bag⟩) } }

/-- Two borrowed callbacks, an undeclared handle type and a name that ends
in a backslash pass the macro and not the loader. -/
theorem loader_refuses_accepted :
    itemLoads pairItem = some false ∧ itemLoads countItem = some false ∧
      itemLoads backslashItem = some false := by
  refine ⟨?_, ?_, ?_⟩
  · decide +kernel
  · decide +kernel
  · decide +kernel

end Rulisp
