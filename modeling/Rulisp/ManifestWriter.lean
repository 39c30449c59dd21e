import Mathlib.Data.List.Forall2
import Rulisp.ManifestText

/-!
# What the manifest's text is read as

The strings that a manifest interpolates are names, without quotes and
backslashes, except for documentation, which is escaped, and explicit
constructor names, which the macro checks.  Piece by piece, what
`render_manifest` writes is read and sanitized as the data it stands for,
with any separators that the width rule picks.
-/

namespace Rulisp

open LispReader

/-! ## Names have no reader syntax -/

theorem IsName.plain {text : String} (hname : IsName text) : Plain text := by
  intro c hc
  have hchar := List.all_eq_true.mp hname c hc
  constructor
  · rintro rfl
    exact absurd hchar (by decide)
  · rintro rfl
    exact absurd hchar (by decide)

theorem IsName.append {text text' : String} (hname : IsName text)
    (hname' : IsName text') : IsName (text ++ text') := by
  unfold IsName at *
  rw [String.toList_append, List.all_append, hname, hname', Bool.and_self]

theorem IsName.snakeToKebab {text : String} (hname : IsName text) :
    IsName (snakeToKebab text) := by
  unfold IsName Rulisp.snakeToKebab at *
  rw [String.toList_ofList, List.all_map, List.all_eq_true]
  intro c hc
  have hchar := List.all_eq_true.mp hname c hc
  by_cases hunderscore : c = '_'
  · simp only [Function.comp, hunderscore]
    decide
  · simpa [hunderscore] using hchar

theorem camelToSnakeFrom_isName (case : CaseMapping) {first : Bool}
    {chars : List Char} (hchars : chars.all isNameChar = true) :
    (camelToSnakeFrom case first chars).all isNameChar = true := by
  induction chars generalizing first with
  | nil => rfl
  | cons ch rest ih =>
      simp only [List.all_cons, Bool.and_eq_true] at hchars
      have htail := @ih false hchars.2
      have hlower := case.lowerName ch hchars.1
      have hsep : (if first then ([] : List Char) else ['_']).all isNameChar =
          true := by
        cases first <;> decide
      unfold camelToSnakeFrom
      split
      · simp only [List.all_append, hsep, hlower, htail, Bool.and_self]
      · simp only [List.all_cons, hchars.1, htail, Bool.and_self]

theorem IsName.camelToSnake {case : CaseMapping} {text : String}
    (hname : IsName text) : IsName (camelToSnake case text) := by
  unfold IsName Rulisp.camelToSnake
  rw [String.toList_ofList]
  exact camelToSnakeFrom_isName case hname

theorem constructorNameBad_quote {v : String}
    (haccepted : constructorNameBad v = false) : '"' ∉ v.toList := by
  intro hc
  simp only [constructorNameBad, Bool.or_eq_false_iff] at haccepted
  have hnone := List.any_eq_false.mp haccepted.2 '"' hc
  simp at hnone

section Exports

variable {case : CaseMapping} (e : Export)

theorem Export.symbol_isName : IsName (e.symbol case) := by
  have hname := e.isName
  have hself := e.selfTy
  unfold Export.symbol
  split
  · exact hname
  · rename_i selfTy hkind
    rw [hkind] at hself
    exact ((hself selfTy rfl).camelToSnake.append (by decide)).append hname
  · rename_i selfTy name hkind
    rw [hkind] at hself
    exact ((hself selfTy rfl).camelToSnake.append (by decide)).append hname

theorem Export.lispName_explicit {v : String}
    (hexplicit : e.kind.explicitName = some v) : e.lispName case = v := by
  unfold Export.lispName
  cases hkind : e.kind with
  | constructor selfTy name =>
      rw [hkind] at hexplicit
      cases hexplicit
      rfl
  | _ =>
      rw [hkind] at hexplicit
      cases hexplicit

/-- The names that the macros derive are plain. -/
theorem Export.lispName_derived (hderived : e.kind.explicitName = none) :
    Plain (e.lispName case) := by
  have hname := e.isName
  have hself := e.selfTy
  unfold Export.lispName
  split
  · exact hname.snakeToKebab.plain
  · rename_i selfTy hkind
    rw [hkind] at hself
    exact (((hself selfTy rfl).camelToSnake.snakeToKebab.append
      (by decide)).append hname.snakeToKebab).plain
  · rename_i selfTy v hkind
    rw [hkind] at hderived
    cases hderived
  · rename_i selfTy hkind
    rw [hkind] at hself
    exact (IsName.append (by decide)
      (hself selfTy rfl).camelToSnake.snakeToKebab).plain

theorem Export.lispName_quote : '"' ∉ (e.lispName case).toList := by
  intro hquote
  cases hexplicit : e.kind.explicitName with
  | none => exact (e.lispName_derived hexplicit _ hquote).1 rfl
  | some v =>
      rw [e.lispName_explicit hexplicit] at hquote
      exact constructorNameBad_quote (e.explicitName v hexplicit) hquote

theorem Export.lispName_plain (hescape : '\\' ∉ (e.lispName case).toList) :
    Plain (e.lispName case) := by
  intro c hc
  constructor
  · rintro rfl
    exact e.lispName_quote hc
  · rintro rfl
    exact hescape hc

/-- Only an explicit name can have a backslash. -/
theorem Export.lispName_escape :
    '\\' ∈ (e.lispName case).toList ↔
      ∃ v ∈ e.kind.explicitName, '\\' ∈ v.toList := by
  cases hexplicit : e.kind.explicitName with
  | none =>
      have hplain : Plain (e.lispName case) := e.lispName_derived hexplicit
      constructor
      · intro hmem
        exact absurd rfl (hplain _ hmem).2
      · rintro ⟨v, hv, -⟩
        cases hv
  | some v =>
      rw [e.lispName_explicit hexplicit]
      constructor
      · exact fun hmem => ⟨v, rfl, hmem⟩
      · rintro ⟨v', hv, hmem⟩
        cases hv
        exact hmem

/-- The handle types that a type token names are plain. -/
def ParamTy.PlainHandles : ParamTy → Prop
  | .handle rustName => Plain rustName
  | .option inner => inner.PlainHandles
  | _ => True

def ResultTy.PlainHandles : ResultTy → Prop
  | .handle rustName => Plain rustName
  | .option inner => inner.PlainHandles
  | _ => True

/-- Every string of the entry but the Lisp name and the documentation. -/
structure FnMeta.PlainFields (f : FnMeta) : Prop where
  rustName : Plain f.rustName
  symbol : Plain f.symbol
  paramNames : ∀ p ∈ f.params, Plain p.name
  paramTypes : ∀ p ∈ f.params, p.ty.PlainHandles
  result : f.result.PlainHandles
  error : ∀ e ∈ f.error, Plain e

theorem PTy.meta_plainHandles {pty : PTy}
    (hnames : ∀ rustName ∈ pty.handleName, IsName rustName) :
    pty.meta.PlainHandles := by
  cases pty with
  | handleRef rustName => exact (hnames rustName rfl).plain
  | _ => trivial

theorem RTy.meta_plainHandles {rty : RTy}
    (hnames : ∀ rustName ∈ rty.handleName, IsName rustName) :
    rty.meta.PlainHandles := by
  cases rty with
  | handle rustName => exact (hnames rustName rfl).plain
  | _ => trivial

theorem Export.plainFields :
    (genMetaConst (e.exported case)).PlainFields := by
  have hname := e.isName.plain
  have hself := e.selfTy
  constructor
  · unfold genMetaConst Export.exported
    simp only
    split
    · exact hname
    · rename_i selfTy hkind
      rw [hkind] at hself
      exact ((hself selfTy rfl).plain.append (by decide)).append hname
    · rename_i selfTy name hkind
      rw [hkind] at hself
      exact ((hself selfTy rfl).plain.append (by decide)).append hname
  · exact e.symbol_isName.plain
  · intro p hp
    obtain ⟨param, hparam, rfl⟩ := List.mem_map.mp hp
    exact (e.paramNames param hparam).plain
  · intro p hp
    obtain ⟨param, hparam, rfl⟩ := List.mem_map.mp hp
    exact PTy.meta_plainHandles (e.paramHandles param hparam)
  · exact RTy.meta_plainHandles e.resultHandle
  · exact fun name herror => (e.errorName name herror).plain

end Exports

/-! ## Text that is read and sanitized -/

section Writes

variable {host : ReadHost}

/-- The text is read as objects that `%sanitize` makes the data of. -/
def Writes (host : ReadHost) (text : String) (data : List Datum) : Prop :=
  ∃ objects, Reads host text objects ∧
    List.Forall₂ (fun object datum => sanitize object = .ok datum) objects data

theorem sanitize_ofListTail {objects : List LispObject} {data : List Datum}
    (hdata : List.Forall₂ (fun object datum => sanitize object = .ok datum)
      objects data) :
    sanitize (.ofListTail objects .null) = .ok (.ofList data) := by
  induction hdata with
  | nil => rfl
  | cons hfirst _ ih =>
      simp only [LispObject.ofListTail, sanitize, hfirst, ih, bind, Except.bind]
      rfl

theorem Writes.append {text text' sep : String} {data data' : List Datum}
    (hfirst : Writes host text data) (hsep : Separator sep)
    (hsecond : Writes host text' data') :
    Writes host (text ++ sep ++ text') (data ++ data') := by
  obtain ⟨objects, hreads, hdata⟩ := hfirst
  obtain ⟨objects', hreads', hdata'⟩ := hsecond
  exact ⟨objects ++ objects', hreads.append hsep hreads',
    List.rel_append hdata hdata'⟩

theorem Writes.list {text : String} {data : List Datum}
    (hwrites : Writes host text data) :
    Writes host ("(" ++ text ++ ")") [.ofList data] := by
  obtain ⟨objects, hreads, hdata⟩ := hwrites
  exact ⟨_, hreads.list, .cons (sanitize_ofListTail hdata) .nil⟩

theorem Writes.join {α : Type} {text : α → String} {datum : α → Datum}
    {sep : String} (hsep : Separator sep) {xs : List α}
    (hwrites : ∀ x ∈ xs, Writes host (text x) [datum x]) :
    Writes host (LispReader.join sep (xs.map text)) (xs.map datum) := by
  induction xs with
  | nil => exact ⟨[], .empty, .nil⟩
  | cons x xs ih =>
      have hfirst := hwrites x List.mem_cons_self
      have hrest := ih fun y hy => hwrites y (List.mem_cons_of_mem x hy)
      cases xs with
      | nil => exact hfirst
      | cons y ys => exact hfirst.append hsep hrest

theorem Writes.string {text : String} (hplain : Plain text) :
    Writes host ("\"" ++ text ++ "\"") [.string text] :=
  ⟨_, .string hplain, .cons rfl .nil⟩

theorem Writes.escaped (text : String) :
    Writes host (pushEscaped text) [.string text] :=
  ⟨_, .escaped text, .cons rfl .nil⟩

/-- The text of a keyword: a colon and lower-case letters or hyphens. -/
theorem Writes.keyword (text name : String)
    (hchars : text.toList.all isConstituent = true)
    (htoken : plainToken text.toList = some (.keyword name)) :
    Writes host text [.keyword name] := by
  refine ⟨_, .token hchars ?_ htoken, .cons rfl .nil⟩
  intro hsharp
  cases hlist : text.toList with
  | nil =>
      rw [hlist] at hsharp
      cases hsharp
  | cons c rest =>
      rw [hlist] at hsharp htoken
      cases hsharp
      simp [plainToken] at htoken

theorem separator_space : Separator " " :=
  ⟨by decide, List.all_eq_true.mp (by decide)⟩

theorem separator_line (n : ℕ) :
    Separator ("\n" ++ String.ofList (List.replicate n ' ')) := by
  constructor
  · simp
  · intro c hc
    simp only [String.toList_append, String.toList_ofList, List.mem_append,
      List.mem_replicate] at hc
    rcases hc with hc | ⟨-, rfl⟩
    · have hnewline : c = '\n' := by simpa using hc
      rw [hnewline]
      decide
    · decide

theorem Writes.token (tok : Token) : Writes host tok.text [tok.datum] := by
  cases tok with
  | scalar s =>
      cases s <;> exact .keyword _ _ (by decide) (by decide)
  | bool => exact .keyword _ _ (by decide) (by decide)
  | string => exact .keyword _ _ (by decide) (by decide)

/-- The two sides consist of the same characters. -/
theorem eq_of_toList_eq {text text' : String}
    (hchars : text.toList = text'.toList) : text = text' :=
  String.toList_inj.mp hchars

theorem Writes.handleType {rustName : String} (hplain : Plain rustName) :
    Writes host ("(:handle \"" ++ rustName ++ "\")")
      [.ofList [.keyword "HANDLE", .string rustName]] := by
  have hkeyword : Writes host ":handle" [.keyword "HANDLE"] :=
    .keyword _ _ (by decide) (by decide)
  have htext : "(:handle \"" ++ rustName ++ "\")" =
      "(" ++ (":handle" ++ " " ++ ("\"" ++ rustName ++ "\"")) ++ ")" := by
    apply eq_of_toList_eq
    simp only [String.toList_append, String.reduceToList,
      List.append_assoc, List.cons_append, List.nil_append]
  rw [htext]
  exact (hkeyword.append separator_space (.string hplain)).list

/-- A callback type; `head` is its keyword, with the colon. -/
theorem Writes.callbackType (head : String) {name : String}
    (hhead : Writes host head [.keyword name]) (params : List Token) :
    Writes host ("(" ++ head ++ " :params (" ++
        LispReader.join " " (params.map Token.text) ++ ") :result " ++
        ":unit" ++ ")")
      [.cons (.keyword name) (.ofPlist
        [("PARAMS", .ofList (params.map Token.datum)),
          ("RESULT", .keyword "UNIT")])] := by
  have hparamsKey : Writes host ":params" [.keyword "PARAMS"] :=
    .keyword _ _ (by decide) (by decide)
  have hresultKey : Writes host ":result" [.keyword "RESULT"] :=
    .keyword _ _ (by decide) (by decide)
  have hunit : Writes host ":unit" [.keyword "UNIT"] :=
    .keyword _ _ (by decide) (by decide)
  have hparams : Writes host
      (LispReader.join " " (params.map Token.text))
      (params.map Token.datum) :=
    .join separator_space fun tok _ => .token tok
  have htext : "(" ++ head ++ " :params (" ++
        LispReader.join " " (params.map Token.text) ++ ") :result " ++
        ":unit" ++ ")" =
      "(" ++ (head ++ " " ++ ":params" ++ " " ++
        ("(" ++ LispReader.join " " (params.map Token.text) ++ ")") ++ " " ++
        ":result" ++ " " ++ ":unit") ++ ")" := by
    apply eq_of_toList_eq
    simp only [String.toList_append, String.reduceToList,
      List.append_assoc, List.cons_append, List.nil_append]
  rw [htext]
  exact ((((hhead.append separator_space hparamsKey).append separator_space
    hparams.list).append separator_space hresultKey).append separator_space
    hunit).list

theorem renderTy_writes {ty : ParamTy} (hplain : ty.PlainHandles) :
    Writes host (renderTy ty) [ty.datum] := by
  induction ty with
  | scalar tok => exact .token tok
  | str => exact .keyword _ _ (by decide) (by decide)
  | bytes => exact .keyword _ _ (by decide) (by decide)
  | handle rustName => exact .handleType hplain
  | callback params =>
      exact .callbackType ":callback"
        (.keyword _ _ (by decide) (by decide)) params
  | storedCallback params =>
      exact .callbackType ":stored-callback"
        (.keyword _ _ (by decide) (by decide)) params
  | option inner ih =>
      have hkeyword : Writes host ":option" [.keyword "OPTION"] :=
        .keyword _ _ (by decide) (by decide)
      exact (hkeyword.append separator_space (ih hplain)).list
  | vec tok =>
      have hkeyword : Writes host ":vec" [.keyword "VEC"] :=
        .keyword _ _ (by decide) (by decide)
      exact (hkeyword.append separator_space (.token tok)).list

theorem renderResult_writes {ty : ResultTy} (hplain : ty.PlainHandles) :
    Writes host (renderResult ty) [ty.datum] := by
  induction ty with
  | unit => exact .keyword _ _ (by decide) (by decide)
  | scalar tok => exact .token tok
  | str => exact .keyword _ _ (by decide) (by decide)
  | bytes => exact .keyword _ _ (by decide) (by decide)
  | handle rustName => exact .handleType hplain
  | option inner ih =>
      have hkeyword : Writes host ":option" [.keyword "OPTION"] :=
        .keyword _ _ (by decide) (by decide)
      exact (hkeyword.append separator_space (ih hplain)).list
  | vec tok =>
      have hkeyword : Writes host ":vec" [.keyword "VEC"] :=
        .keyword _ _ (by decide) (by decide)
      exact (hkeyword.append separator_space (.token tok)).list

theorem renderParam_writes {p : ParamMeta} (hname : Plain p.name)
    (hty : p.ty.PlainHandles) : Writes host (renderParam p) [p.datum] := by
  have hnameKey : Writes host ":name" [.keyword "NAME"] :=
    .keyword _ _ (by decide) (by decide)
  have htypeKey : Writes host ":type" [.keyword "TYPE"] :=
    .keyword _ _ (by decide) (by decide)
  have htext : renderParam p =
      "(" ++ (":name" ++ " " ++ ("\"" ++ p.name ++ "\"") ++ " " ++ ":type" ++
        " " ++ renderTy p.ty) ++ ")" := by
    apply eq_of_toList_eq
    unfold renderParam
    simp only [String.toList_append, String.reduceToList,
      List.append_assoc, List.cons_append, List.nil_append]
  rw [htext]
  exact (((hnameKey.append separator_space (.string hname)).append
    separator_space htypeKey).append separator_space
    (renderTy_writes hty)).list

theorem renderError_writes {error : Option String}
    (hplain : ∀ e ∈ error, Plain e) :
    Writes host (renderError error) [optionalString error] := by
  cases error with
  | none =>
      exact ⟨[.symbol "NIL"], .token (by decide) (by decide) (by decide),
        .cons rfl .nil⟩
  | some name => exact .string (hplain name rfl)

/-- The documentation as the entry's last key and value. -/
def docData : Option String → List Datum
  | none => []
  | some doc => [.keyword "DOC", .string doc]

theorem Writes.doc {text : String} {data : List Datum}
    (hwrites : Writes host text data) (doc : Option String) :
    Writes host (text ++ renderDoc doc) (data ++ docData doc) := by
  cases doc with
  | none =>
      have htext : text ++ renderDoc none = text := by
        apply eq_of_toList_eq
        simp [renderDoc]
      rw [htext]
      simpa [docData] using hwrites
  | some doc =>
      have hdocKey : Writes host ":doc" [.keyword "DOC"] :=
        .keyword _ _ (by decide) (by decide)
      have htext : text ++ renderDoc (some doc) =
          text ++ "\n   " ++ (":doc" ++ " " ++ pushEscaped doc) := by
        apply eq_of_toList_eq
        unfold renderDoc
        simp only [String.toList_append, String.reduceToList,
          List.append_assoc, List.cons_append, List.nil_append]
      rw [htext]
      exact hwrites.append (separator_line 3)
        (hdocKey.append separator_space (.escaped doc))

/-! ### Functions -/

/-- An entry with the separators that the width rule picked. -/
def fnText (f : FnMeta) (between before : String) : String :=
  "(" ++ (":fn" ++ " " ++ ":rust-name" ++ " " ++ ("\"" ++ f.rustName ++ "\"") ++
    " " ++ ":lisp-name" ++ " " ++ ("\"" ++ f.lispName ++ "\"") ++ " " ++
    ":symbol" ++ " " ++ ("\"" ++ f.symbol ++ "\"") ++ "\n   " ++ ":params" ++
    " " ++ ("(" ++ LispReader.join between (f.params.map renderParam) ++ ")") ++
    before ++ ":result" ++ " " ++ renderResult f.result ++ " " ++ ":error" ++
    " " ++ renderError f.error ++ renderDoc f.doc) ++ ")"

theorem renderFn_layout (f : FnMeta) :
    ∃ between before, Separator between ∧ Separator before ∧
      renderFn f = fnText f between before := by
  have htext : ∀ between before,
      "(:fn :rust-name \"" ++ f.rustName ++ "\" :lisp-name \"" ++ f.lispName ++
          "\" :symbol \"" ++ f.symbol ++ "\"\n" ++
          ("   :params (" ++ LispReader.join between (f.params.map renderParam) ++
            ")" ++ before ++ (":result " ++ renderResult f.result ++
              " :error " ++ renderError f.error ++ renderDoc f.doc ++ ")")) =
        fnText f between before := by
    intro between before
    apply eq_of_toList_eq
    unfold fnText
    simp only [String.toList_append, String.reduceToList,
      List.append_assoc, List.cons_append, List.nil_append]
  unfold renderFn
  simp only
  split
  · refine ⟨" ", " ", separator_space, separator_space, ?_⟩
    rw [← htext]
    apply eq_of_toList_eq
    simp only [String.toList_append, String.reduceToList,
      List.append_assoc, List.cons_append, List.nil_append]
  split
  · refine ⟨" ", "\n   ", separator_space, separator_line 3, ?_⟩
    rw [← htext]
  · refine ⟨"\n            ", "\n   ", separator_line 12, separator_line 3, ?_⟩
    rw [← htext]

theorem FnMeta.datum_eq (f : FnMeta) :
    f.datum = .ofList ([.keyword "FN", .keyword "RUST-NAME",
      .string f.rustName, .keyword "LISP-NAME", .string f.lispName,
      .keyword "SYMBOL", .string f.symbol, .keyword "PARAMS",
      .ofList (f.params.map ParamMeta.datum), .keyword "RESULT",
      f.result.datum, .keyword "ERROR", optionalString f.error] ++
      docData f.doc) := by
  cases hdoc : f.doc <;> simp only [FnMeta.datum, hdoc] <;> rfl

/-- The list of an entry whose Lisp name is read as `name`. -/
theorem renderFn_body {f : FnMeta} {name : String} (hfields : f.PlainFields)
    (hname : Writes host ("\"" ++ f.lispName ++ "\"") [.string name]) :
    ∃ body data, renderFn f = "(" ++ body ++ ")" ∧ Writes host body data ∧
      { f with lispName := name }.datum = .ofList data := by
  have hkey : ∀ text name, text.toList.all isConstituent = true →
      plainToken text.toList = some (.keyword name) →
        Writes host text [.keyword name] :=
    fun text name => .keyword text name
  obtain ⟨between, before, hbetween, hbefore, htext⟩ := renderFn_layout f
  have hparams : Writes host
      (LispReader.join between (f.params.map renderParam))
      (f.params.map ParamMeta.datum) :=
    .join hbetween fun p hp => renderParam_writes (hfields.paramNames p hp)
      (hfields.paramTypes p hp)
  have hnames := ((((((hkey ":fn" "FN" (by decide) (by decide)).append
    separator_space (hkey ":rust-name" "RUST-NAME" (by decide) (by decide))).append
    separator_space (.string hfields.rustName)).append
    separator_space (hkey ":lisp-name" "LISP-NAME" (by decide) (by decide))).append
    separator_space hname).append
    separator_space (hkey ":symbol" "SYMBOL" (by decide) (by decide))).append
    separator_space (.string hfields.symbol)
  have hbody := (((((hnames.append (separator_line 3)
    (hkey ":params" "PARAMS" (by decide) (by decide))).append
    separator_space hparams.list).append
    hbefore (hkey ":result" "RESULT" (by decide) (by decide))).append
    separator_space (renderResult_writes hfields.result)).append
    separator_space (hkey ":error" "ERROR" (by decide) (by decide))).append
    separator_space (renderError_writes hfields.error)
  exact ⟨_, _, htext, hbody.doc f.doc, FnMeta.datum_eq _⟩

theorem renderFn_writes {f : FnMeta} (hfields : f.PlainFields)
    (hlispName : Plain f.lispName) : Writes host (renderFn f) [f.datum] := by
  obtain ⟨body, data, htext, hbody, hdatum⟩ :=
    renderFn_body hfields (.string hlispName)
  rw [htext, hdatum]
  exact hbody.list

/-- An entry up to its Lisp name. -/
def fnHead (f : FnMeta) : String :=
  ":fn" ++ " " ++ ":rust-name" ++ " " ++ ("\"" ++ f.rustName ++ "\"") ++ " " ++
    ":lisp-name"

theorem renderFn_symbol (f : FnMeta) :
    ∃ more, renderFn f =
      "(" ++ fnHead f ++ " " ++ "\"" ++ f.lispName ++ "\"" ++
        (" :symbol \"" ++ f.symbol ++ "\"" ++ more) := by
  obtain ⟨between, before, -, -, htext⟩ := renderFn_layout f
  refine ⟨"\n   " ++ (":params" ++ " " ++ ("(" ++ LispReader.join between
    (f.params.map renderParam) ++ ")") ++ before ++ ":result" ++ " " ++
    renderResult f.result ++ " " ++ ":error" ++ " " ++ renderError f.error ++
    renderDoc f.doc ++ ")"), ?_⟩
  rw [htext, fnText, fnHead]
  apply eq_of_toList_eq
  simp only [String.toList_append, String.reduceToList,
    List.append_assoc, List.cons_append, List.nil_append]

theorem renderFn_head (f : FnMeta) :
    ∃ more, renderFn f =
      "(" ++ fnHead f ++ " " ++ "\"" ++ f.lispName ++ "\"" ++ more := by
  obtain ⟨more, htext⟩ := renderFn_symbol f
  exact ⟨_, htext⟩

theorem fnHead_writes {f : FnMeta} (hrustName : Plain f.rustName) :
    Writes host (fnHead f) [.keyword "FN", .keyword "RUST-NAME",
      .string f.rustName, .keyword "LISP-NAME"] := by
  have hfnKey : Writes host ":fn" [.keyword "FN"] :=
    .keyword _ _ (by decide) (by decide)
  have hrustKey : Writes host ":rust-name" [.keyword "RUST-NAME"] :=
    .keyword _ _ (by decide) (by decide)
  have hlispKey : Writes host ":lisp-name" [.keyword "LISP-NAME"] :=
    .keyword _ _ (by decide) (by decide)
  exact ((hfnKey.append separator_space hrustKey).append separator_space
    (.string hrustName)).append separator_space hlispKey

/-! ### The manifest -/

theorem HandleMeta.datum_eq (h : HandleMeta) :
    h.datum = .ofList ([.keyword "HANDLE", .keyword "RUST-NAME",
      .string h.rustName, .keyword "LISP-NAME", .string h.lispName,
      .keyword "FREE", .string h.freeSymbol] ++ docData h.doc) := by
  cases hdoc : h.doc <;> simp only [HandleMeta.datum, hdoc] <;> rfl

theorem renderHandle_writes {h : HandleMeta} (hrustName : Plain h.rustName)
    (hlispName : Plain h.lispName) (hfree : Plain h.freeSymbol) :
    Writes host (renderHandle h) [h.datum] := by
  have hhandleKey : Writes host ":handle" [.keyword "HANDLE"] :=
    .keyword _ _ (by decide) (by decide)
  have hrustKey : Writes host ":rust-name" [.keyword "RUST-NAME"] :=
    .keyword _ _ (by decide) (by decide)
  have hlispKey : Writes host ":lisp-name" [.keyword "LISP-NAME"] :=
    .keyword _ _ (by decide) (by decide)
  have hfreeKey : Writes host ":free" [.keyword "FREE"] :=
    .keyword _ _ (by decide) (by decide)
  have htext : renderHandle h =
      "(" ++ (":handle" ++ " " ++ ":rust-name" ++ " " ++
        ("\"" ++ h.rustName ++ "\"") ++ " " ++ ":lisp-name" ++ " " ++
        ("\"" ++ h.lispName ++ "\"") ++ " " ++ ":free" ++ " " ++
        ("\"" ++ h.freeSymbol ++ "\"") ++ renderDoc h.doc) ++ ")" := by
    apply eq_of_toList_eq
    unfold renderHandle
    simp only [String.toList_append, String.reduceToList,
      List.append_assoc, List.cons_append, List.nil_append]
  have hbody := (((((hhandleKey.append separator_space hrustKey).append
    separator_space (.string hrustName)).append
    separator_space hlispKey).append
    separator_space (.string hlispName)).append
    separator_space hfreeKey).append separator_space (.string hfree)
  rw [htext, HandleMeta.datum_eq]
  exact (hbody.doc h.doc).list

/-- The `:on-dump` of a manifest is written only when there is one. -/
def onDumpData : Option String → List Datum
  | none => []
  | some sym => [.keyword "ON-DUMP", .string sym]

theorem Writes.onDump {text : String} {data : List Datum}
    (hwrites : Writes host text data) {onDump : Option String}
    (hplain : ∀ sym ∈ onDump, Plain sym) :
    Writes host (text ++ renderOnDump onDump) (data ++ onDumpData onDump) := by
  cases onDump with
  | none =>
      have htext : text ++ renderOnDump none = text := by
        apply eq_of_toList_eq
        simp [renderOnDump]
      rw [htext]
      simpa [onDumpData] using hwrites
  | some sym =>
      have hkey : Writes host ":on-dump" [.keyword "ON-DUMP"] :=
        .keyword _ _ (by decide) (by decide)
      have htext : text ++ renderOnDump (some sym) =
          text ++ "\n " ++ (":on-dump" ++ " " ++ ("\"" ++ sym ++ "\"")) := by
        apply eq_of_toList_eq
        unfold renderOnDump
        simp only [String.toList_append, String.reduceToList,
          List.append_assoc, List.cons_append, List.nil_append]
      rw [htext]
      exact hwrites.append (separator_line 1)
        (hkey.append separator_space (.string (hplain sym rfl)))

end Writes

namespace ModuleDecl

variable {host : ReadHost} {case : CaseMapping} (m : ModuleDecl case)
  (build : RuntimeBuild)

/-- The text from the opening parenthesis to the errors. -/
def identityText : String :=
  ":rulisp-manifest" ++ "\n " ++ ":schema" ++ " " ++ "1" ++ "\n " ++ ":abi" ++
    " " ++ "1" ++ "\n " ++ ":crate" ++ " " ++ ("\"" ++ m.name ++ "\"") ++
    "\n " ++ ":crate-version" ++ " " ++ ("\"" ++ m.version ++ "\"") ++ "\n " ++
    ":rulisp-version" ++ " " ++ ("\"" ++ build.rulispVersion ++ "\"") ++
    "\n " ++ ":target" ++ " " ++ ("\"" ++ build.target ++ "\"") ++ "\n " ++
    ":prefix" ++ " " ++ ("\"" ++ m.pfx ++ "\"") ++ renderOnDump m.onDump

def identityData : List Datum :=
  [.keyword "RULISP-MANIFEST", .keyword "SCHEMA", .integer 1, .keyword "ABI",
    .integer 1, .keyword "CRATE", .string m.name, .keyword "CRATE-VERSION",
    .string m.version, .keyword "RULISP-VERSION", .string build.rulispVersion,
    .keyword "TARGET", .string build.target, .keyword "PREFIX",
    .string m.pfx] ++ onDumpData m.onDump

/-- The text before the list of functions. -/
def headerText : String :=
  m.identityText build ++ "\n " ++ ":errors" ++ " " ++
    ("(" ++ join " " ((seenErrors m.fnMetas).map fun e => "\"" ++ e ++ "\"") ++
      ")") ++ "\n " ++
    ":handles" ++ "\n " ++
    ("(" ++ join "\n  " (m.handleMetas.map renderHandle) ++ ")") ++ "\n " ++
    ":functions"

def headerData : List Datum :=
  m.identityData build ++ [.keyword "ERRORS",
    .ofList ((seenErrors m.fnMetas).map .string), .keyword "HANDLES",
    .ofList (m.handleMetas.map HandleMeta.datum), .keyword "FUNCTIONS"]

theorem manifestStr_eq : m.manifestStr build =
    "(" ++ (m.headerText build ++ "\n " ++
      ("(" ++ join "\n  " (m.fnMetas.map renderFn) ++ ")")) ++ ")" ++ "\n" := by
  apply eq_of_toList_eq
  unfold manifestStr renderManifest headerText identityText
  simp only [String.toList_append, String.reduceToList, List.append_assoc,
    List.cons_append, List.nil_append]

theorem pfx_isName : IsName m.pfx := by
  have hname : IsName (.ofList (m.name.toList.map fun c =>
      if c = '-' then '_' else c)) := by
    unfold IsName
    rw [String.toList_ofList, List.all_map, List.all_eq_true]
    intro c hc
    have hchar := List.all_eq_true.mp m.isName c hc
    by_cases hhyphen : c = '-'
    · simp only [Function.comp, hhyphen]
      decide
    · simpa [hhyphen] using hchar
  exact hname.append (by decide)

theorem onDump_plain : ∀ sym ∈ m.onDump, Plain sym := by
  intro sym hsym
  obtain ⟨e, -, -, rfl, -⟩ := m.onDumpFn sym hsym
  exact e.isName.plain

theorem mem_noteError {seen : List String} {f : FnMeta} {error : String}
    (herror : error ∈ noteError seen f) : error ∈ seen ∨ f.error = some error := by
  unfold noteError at herror
  split at herror
  · rename_i e he
    split at herror
    · rcases List.mem_append.mp herror with hold | hnew
      · exact .inl hold
      · rw [List.mem_singleton.mp hnew]
        exact .inr he
    · exact .inl herror
  · exact .inl herror

theorem mem_foldl_noteError {fns : List FnMeta} {seen : List String}
    {error : String} (herror : error ∈ fns.foldl noteError seen) :
    error ∈ seen ∨ ∃ f ∈ fns, f.error = some error := by
  induction fns generalizing seen with
  | nil => exact .inl herror
  | cons f rest ih =>
      rcases ih herror with hnoted | ⟨other, hother, hfound⟩
      · rcases mem_noteError hnoted with hold | hnew
        · exact .inl hold
        · exact .inr ⟨f, List.mem_cons_self, hnew⟩
      · exact .inr ⟨other, List.mem_cons_of_mem f hother, hfound⟩

theorem mem_seenErrors {fns : List FnMeta} {error : String}
    (herror : error ∈ seenErrors fns) :
    ∃ f ∈ fns, f.error = some error := by
  rcases mem_foldl_noteError herror with hnone | hfound
  · cases hnone
  · exact hfound

theorem identity_writes :
    Writes host (m.identityText build) (m.identityData build) := by
  have hkey : ∀ text name, text.toList.all isConstituent = true →
      plainToken text.toList = some (.keyword name) →
        Writes host text [.keyword name] :=
    fun text name => .keyword text name
  have hone : Writes host "1" [.integer 1] :=
    ⟨[.integer 1], .token (by decide) (by decide) (by decide), .cons rfl .nil⟩
  have hline : Separator "\n " := separator_line 1
  have hversions := ((((((((hkey ":rulisp-manifest" "RULISP-MANIFEST"
    (by decide) (by decide)).append
    hline (hkey ":schema" "SCHEMA" (by decide) (by decide))).append
    separator_space hone).append
    hline (hkey ":abi" "ABI" (by decide) (by decide))).append
    separator_space hone).append
    hline (hkey ":crate" "CRATE" (by decide) (by decide))).append
    separator_space (.string m.isName.plain)).append
    hline (hkey ":crate-version" "CRATE-VERSION" (by decide) (by decide))).append
    separator_space (.string m.isVersion.plain)
  have hbuild := (((((hversions.append
    hline (hkey ":rulisp-version" "RULISP-VERSION" (by decide) (by decide))).append
    separator_space (.string build.isVersion.plain)).append
    hline (hkey ":target" "TARGET" (by decide) (by decide))).append
    separator_space (.string build.isTarget.plain)).append
    hline (hkey ":prefix" "PREFIX" (by decide) (by decide))).append
    separator_space (.string m.pfx_isName.plain)
  exact hbuild.onDump m.onDump_plain

theorem header_writes :
    Writes host (m.headerText build) (m.headerData build) := by
  have hkey : ∀ text name, text.toList.all isConstituent = true →
      plainToken text.toList = some (.keyword name) →
        Writes host text [.keyword name] :=
    fun text name => .keyword text name
  have herrors : Writes host
      (join " " ((seenErrors m.fnMetas).map fun e => "\"" ++ e ++ "\""))
      ((seenErrors m.fnMetas).map .string) := by
    apply Writes.join separator_space
    intro error herror
    obtain ⟨f, hf, hfound⟩ := mem_seenErrors herror
    obtain ⟨e, -, rfl⟩ := List.mem_map.mp hf
    exact .string (e.plainFields.error error hfound)
  have hhandles : Writes host
      (join "\n  " (m.handleMetas.map renderHandle))
      (m.handleMetas.map HandleMeta.datum) := by
    apply Writes.join (separator_line 2)
    intro h hh
    obtain ⟨decl, -, rfl⟩ := List.mem_map.mp hh
    exact renderHandle_writes decl.isName.plain
      decl.isName.camelToSnake.snakeToKebab.plain
      (decl.isName.camelToSnake.append (by decide)).plain
  have hline : Separator "\n " := separator_line 1
  have hwrites := (((((m.identity_writes build).append
    hline (hkey ":errors" "ERRORS" (by decide) (by decide))).append
    separator_space herrors.list).append
    hline (hkey ":handles" "HANDLES" (by decide) (by decide))).append
    hline hhandles.list).append
    hline (hkey ":functions" "FUNCTIONS" (by decide) (by decide))
  unfold headerText headerData
  simpa only [List.append_assoc, List.cons_append, List.nil_append] using
    hwrites

end ModuleDecl

end Rulisp
