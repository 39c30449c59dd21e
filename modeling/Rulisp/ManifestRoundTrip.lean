import Mathlib.Data.List.Nodup
import Rulisp.ManifestGrammar
import Rulisp.ManifestWriter

/-!
# The manifest round trip

`parse-manifest` of what `render_manifest` writes gives back what was
declared, whichever layout the width rule picks, if and only if no explicit
constructor name has a backslash: the macro's check lets it through, the
renderer does not escape it, and the reader takes it for an escape.
-/

namespace Rulisp

open LispReader

/-! ## The data are accepted -/

namespace ModuleDecl

variable {case : CaseMapping} (m : ModuleDecl case) (build : RuntimeBuild)

/-- The header's keys and values. -/
def headerPlist : List (String × Datum) :=
  [("SCHEMA", .integer 1), ("ABI", .integer 1), ("CRATE", .string m.name),
    ("CRATE-VERSION", .string m.version),
    ("RULISP-VERSION", .string build.rulispVersion),
    ("TARGET", .string build.target), ("PREFIX", .string m.pfx)] ++
  (match m.onDump with
    | none => []
    | some sym => [("ON-DUMP", .string sym)]) ++
  [("ERRORS", .ofList ((seenErrors m.fnMetas).map .string)),
    ("HANDLES", .ofList (m.handleMetas.map HandleMeta.datum))]

/-- The entry of the hook is the one that `find` finds for it. -/
theorem find_onDump {sym : String} (hsym : sym ∈ m.onDump) :
    ∃ e ∈ m.fns, e.symbol case = sym ∧ e.params = [] ∧
      (m.manifest build).functions.find? (fun spec => spec.symbol == sym) =
        some (genMetaConst (e.exported case)).spec := by
  obtain ⟨e, he, hfree, hname, hparams⟩ := m.onDumpFn sym hsym
  have hsymbol : e.symbol case = sym := by
    simp [Export.symbol, hfree, hname]
  refine ⟨e, he, hsymbol, hparams, ?_⟩
  have hmem : (genMetaConst (e.exported case)).spec ∈
      (m.manifest build).functions :=
    List.mem_map_of_mem (List.mem_map_of_mem he)
  cases hfound : (m.manifest build).functions.find?
      (fun spec => spec.symbol == sym) with
  | none =>
      have hno := List.find?_eq_none.mp hfound _ hmem
      exact absurd (beq_iff_eq.mpr hsymbol) hno
  | some spec =>
      have hsame : spec.symbol = sym := by
        simpa using List.find?_some hfound
      obtain ⟨f, hf, hfspec⟩ :=
        List.mem_map.mp (List.mem_of_find?_eq_some hfound)
      obtain ⟨e', he', hf'⟩ := List.mem_map.mp hf
      have hsymbols : e'.symbol case = e.symbol case := by
        rw [hsymbol, ← hsame, ← hfspec, ← hf']
        rfl
      rw [← hfspec, ← hf', m.symbols e' he' e he hsymbols]

theorem RTy.meta_datum_eq_unit (rty : RTy) :
    rty.meta.datum = .keyword "UNIT" ↔ rty = .unit := by
  constructor
  · intro hdatum
    cases rty with
    | unit => rfl
    | scalar s => cases s <;> exact absurd hdatum (by decide)
    | bool | str | bytes => exact absurd hdatum (by decide)
    | handle _ | optionScalar _ | optionStr | optionBytes | vecScalar _ =>
        cases hdatum
  · rintro rfl
    rfl

/-- The loader takes the hook if its function returns nothing. -/
theorem hookDeclared_iff : HookDeclared (m.manifest build) ↔
    ∀ sym ∈ m.onDump, ∀ e ∈ m.fns, e.symbol case = sym → e.result = .unit := by
  constructor
  · intro hhook sym hsym e he hsymbol
    obtain ⟨hook, hhookMem, hhookSymbol, -, hfind⟩ := m.find_onDump build hsym
    obtain ⟨spec, hspec, -, hresult⟩ := hhook sym hsym
    cases hfind.symm.trans hspec
    have hsame := m.symbols e he hook hhookMem (hsymbol.trans hhookSymbol.symm)
    exact hsame ▸ (RTy.meta_datum_eq_unit hook.result).mp hresult
  · intro hunit sym hsym
    obtain ⟨hook, hhookMem, hhookSymbol, hparams, hfind⟩ :=
      m.find_onDump build hsym
    refine ⟨_, hfind, ?_, ?_⟩
    · simp [FnMeta.spec, genMetaConst, Export.exported, hparams]
    · exact (RTy.meta_datum_eq_unit hook.result).mpr
        (hunit sym hsym hook hhookMem hhookSymbol)

theorem form_eq (functions : Datum) :
    Datum.ofList (m.headerData build ++ [functions]) =
      .cons (.keyword "RULISP-MANIFEST")
        (.ofPlist (m.headerPlist build ++ [("FUNCTIONS", functions)])) := by
  unfold headerData identityData headerPlist
  cases m.onDump <;> rfl

theorem getf_plist (key : String) (functions : Datum) :
    (Datum.ofPlist (m.headerPlist build ++
        [("FUNCTIONS", functions)])).getf key =
      .ok (((m.headerPlist build ++
        [("FUNCTIONS", functions)]).lookup key).getD .nil) :=
  Datum.getf_ofPlist key _

/-- The form that `read` and `%sanitize` make of the text. -/
def form : Datum :=
  .ofList (m.headerData build ++
    [Datum.ofList (m.fnMetas.map FnMeta.datum)])

theorem lookup_form : ∃ plist, m.form build =
      .cons (.keyword "RULISP-MANIFEST") plist ∧ plist.properPlist = true ∧
    ∀ key value, ((m.headerPlist build ++
      [("FUNCTIONS", Datum.ofList (m.fnMetas.map FnMeta.datum))]).lookup
        key).getD .nil = value → plist.lookup key = value := by
  refine ⟨_, m.form_eq build _, ?_, ?_⟩
  · exact (getf_eq_ok.mp (m.getf_plist build "SCHEMA" _)).1
  · intro key value hvalue
    exact (getf_eq_ok.mp (m.getf_plist build key _)).2.trans hvalue

theorem lookup_handles {plist : Datum}
    (hlookup : ∀ key value, ((m.headerPlist build ++
      [("FUNCTIONS", Datum.ofList (m.fnMetas.map FnMeta.datum))]).lookup
        key).getD .nil = value → plist.lookup key = value) :
    (plist.lookup "HANDLES").mapcar parseHandle =
      .ok (m.handleMetas.map HandleMeta.spec) := by
  have hkey : plist.lookup "HANDLES" =
      .ofList (m.handleMetas.map HandleMeta.datum) := by
    apply hlookup
    unfold headerPlist
    cases m.onDump <;> rfl
  rw [hkey]
  exact Datum.mapcar_ofList fun h _ => parseHandle_datum h

theorem lookup_fns {plist : Datum}
    (hlookup : ∀ key value, ((m.headerPlist build ++
      [("FUNCTIONS", Datum.ofList (m.fnMetas.map FnMeta.datum))]).lookup
        key).getD .nil = value → plist.lookup key = value) :
    (plist.lookup "FUNCTIONS").mapcar parseFn =
      .ok (m.fnMetas.map FnMeta.spec) := by
  have hkey : plist.lookup "FUNCTIONS" =
      .ofList (m.fnMetas.map FnMeta.datum) := by
    apply hlookup
    unfold headerPlist
    cases m.onDump <;> rfl
  rw [hkey]
  exact Datum.mapcar_ofList fun f _ => parseFn_datum f

theorem lookup_onDump {plist : Datum}
    (hlookup : ∀ key value, ((m.headerPlist build ++
      [("FUNCTIONS", Datum.ofList (m.fnMetas.map FnMeta.datum))]).lookup
        key).getD .nil = value → plist.lookup key = value) :
    plist.lookup "ON-DUMP" = optionalString m.onDump := by
  apply hlookup
  unfold headerPlist
  cases m.onDump <;> rfl

variable {m} in
theorem Checked.parseManifest_form (hchecked : m.Checked) :
    parseManifest (m.form build) = .ok (m.manifest build) := by
  obtain ⟨plist, hform, hproper, hlookup⟩ := m.lookup_form build
  have hhandleNames :
      ((m.handleMetas.map HandleMeta.spec).map HandleSpec.lispName).Nodup := by
    rw [handleMetas, List.map_map, List.map_map]
    exact hchecked.handleNames
  have hlispNames :
      ((m.fnMetas.map FnMeta.spec).map FnSpec.lispName).Nodup := by
    rw [fnMetas, List.map_map, List.map_map]
    exact hchecked.lispNames
  rw [parseManifest_eq_ok]
  refine ⟨plist, hform, ?_⟩
  constructor
  case proper => exact hproper
  case supported => exact Int.le_refl 1
  case errors =>
    apply hlookup
    unfold headerPlist manifest
    cases m.onDump <;> rfl
  case strings => exact .inr ⟨seenErrors m.fnMetas, rfl⟩
  case handles =>
    exact ⟨(mapcar_eq_ok parseHandle_eq_ok).mp (m.lookup_handles build hlookup),
      hhandleNames⟩
  case functions =>
    exact ⟨(mapcar_eq_ok parseFn_eq_ok).mp (m.lookup_fns build hlookup),
      hlispNames⟩
  case onDump => exact m.lookup_onDump build hlookup
  case hook => exact (m.hookDeclared_iff build).mpr hchecked.onDumpUnit
  all_goals exact hlookup _ _ rfl

/-- `parse-manifest` takes the form if the loader's own checks pass. -/
theorem parseManifest_form_iff {parsed : Manifest} :
    parseManifest (m.form build) = .ok parsed ↔
      m.Checked ∧ m.manifest build = parsed := by
  constructor
  · intro hparse
    obtain ⟨plist, hform, -, hlookup⟩ := m.lookup_form build
    obtain ⟨_, hform', hplist⟩ := (parseManifest_eq_ok _ _).mp hparse
    obtain ⟨-, rfl⟩ := Datum.cons.inj (hform.symm.trans hform')
    have hhandles := (mapcar_eq_ok parseHandle_eq_ok).mpr hplist.handles.1
    have hfns := (mapcar_eq_ok parseFn_eq_ok).mpr hplist.functions.1
    rw [m.lookup_handles build hlookup, Except.ok.injEq] at hhandles
    rw [m.lookup_fns build hlookup, Except.ok.injEq] at hfns
    have hdump : m.onDump = parsed.onDump := by
      have hkey := (m.lookup_onDump build hlookup).symm.trans hplist.onDump
      cases hdeclared : m.onDump <;> cases hparsed : parsed.onDump <;>
        simp_all [optionalString]
    have hchecked : m.Checked := by
      constructor
      case lispNames =>
        have hnames := hfns ▸ hplist.functions.2
        rwa [fnMetas, List.map_map, List.map_map] at hnames
      case handleNames =>
        have hnames := hhandles ▸ hplist.handles.2
        rwa [handleMetas, List.map_map, List.map_map] at hnames
      case onDumpUnit =>
        refine (m.hookDeclared_iff build).mp ?_
        intro sym hsym
        have hhook := hplist.hook sym (hdump ▸ hsym)
        rwa [← hfns] at hhook
    refine ⟨hchecked, ?_⟩
    rw [hchecked.parseManifest_form build, Except.ok.injEq] at hparse
    exact hparse
  · rintro ⟨hchecked, rfl⟩
    exact hchecked.parseManifest_form build

/-- `parse-manifest` gives back what was declared. -/
def RoundTrips (host : ReadHost) : Prop :=
  parseManifestString host (m.manifestStr build) = .ok (m.manifest build)

variable {host : ReadHost}

/-- What is read from the text, if no Lisp name has a backslash. -/
theorem read_of_plain
    (hplain : ∀ e ∈ m.fns, '\\' ∉ (e.lispName case).toList) :
    (safeRead host (m.manifestStr build) >>= sanitize) =
      .ok (m.form build) := by
  have hfunctions : Writes host (join "\n  " (m.fnMetas.map renderFn))
      (m.fnMetas.map FnMeta.datum) := by
    apply Writes.join (separator_line 2)
    intro f hf
    obtain ⟨e, he, rfl⟩ := List.mem_map.mp hf
    exact renderFn_writes e.plainFields (e.lispName_plain (hplain e he))
  have hheader : Writes host (m.headerText build) (m.headerData build) :=
    m.header_writes build
  have hline : Separator "\n " := separator_line 1
  obtain ⟨objects, hreads, hdata⟩ := hheader.append hline hfunctions.list
  have hread := readFromString_list "\n" hreads
  rw [← manifestStr_eq] at hread
  simp only [safeRead, hread, bind, Except.bind, sanitize_ofListTail hdata]
  rfl

theorem roundTrips_iff_checked
    (hplain : ∀ e ∈ m.fns, '\\' ∉ (e.lispName case).toList) :
    m.RoundTrips build host ↔ m.Checked := by
  have hread := @read_of_plain case m build host hplain
  have hparse : parseManifestString host (m.manifestStr build) =
      parseManifest (m.form build) := by
    have hassoc : parseManifestString host (m.manifestStr build) =
        (safeRead host (m.manifestStr build) >>= sanitize) >>=
          parseManifest :=
      (bind_assoc _ _ _).symm
    rw [hassoc, hread]
    rfl
  rw [RoundTrips, hparse, parseManifest_form_iff]
  exact and_iff_left rfl

end ModuleDecl

/-! ## A name with a backslash -/

def Datum.ofListTail : List Datum → Datum → Datum
  | [], tail => tail
  | first :: rest, tail => .cons first (ofListTail rest tail)

/-- `%sanitize` keeps the elements that were read. -/
theorem sanitize_ofListTail_cons {objects : List LispObject}
    {data : List Datum} {next tail : LispObject} {form : Datum}
    (hdata : List.Forall₂ (fun object datum => sanitize object = .ok datum)
      objects data)
    (hform : sanitize (.ofListTail objects (.cons next tail)) = .ok form) :
    ∃ nextDatum tailDatum, sanitize next = .ok nextDatum ∧
      form = .ofListTail data (.cons nextDatum tailDatum) := by
  induction hdata generalizing form with
  | nil =>
      obtain ⟨nextDatum, hnext, hrest⟩ := LispResult.bind_eq_ok.mp hform
      obtain ⟨tailDatum, -, hpair⟩ := LispResult.bind_eq_ok.mp hrest
      cases hpair
      exact ⟨nextDatum, tailDatum, hnext, rfl⟩
  | cons hfirst _ ih =>
      obtain ⟨firstDatum, hfirst', hrest⟩ := LispResult.bind_eq_ok.mp hform
      cases hfirst.symm.trans hfirst'
      obtain ⟨restDatum, hrestDatum, hpair⟩ := LispResult.bind_eq_ok.mp hrest
      cases hpair
      obtain ⟨nextDatum, tailDatum, hnext, rfl⟩ := ih hrestDatum
      exact ⟨nextDatum, tailDatum, hnext, rfl⟩

theorem mapcar_ofListTail {α : Type} {f : Datum → LispResult α}
    {data : List Datum} {next tail : Datum} {ys : List α}
    (hmapcar : (Datum.ofListTail data (.cons next tail)).mapcar f = .ok ys) :
    ∃ y, ys[data.length]? = some y ∧ f next = .ok y := by
  induction data generalizing ys with
  | nil =>
      obtain ⟨y, hy, hrest⟩ := LispResult.bind_eq_ok.mp hmapcar
      obtain ⟨_, -, hys⟩ := LispResult.bind_eq_ok.mp hrest
      cases hys
      exact ⟨y, rfl, hy⟩
  | cons first data ih =>
      obtain ⟨_, -, hrest⟩ := LispResult.bind_eq_ok.mp hmapcar
      obtain ⟨values, hvalues, hys⟩ := LispResult.bind_eq_ok.mp hrest
      cases hys
      obtain ⟨y, hget, hy⟩ := ih hvalues
      exact ⟨y, by simpa using hget, hy⟩

theorem parseManifest_functions {plist : Datum} {manifest : Manifest}
    (hparse : parseManifest (.cons (.keyword "RULISP-MANIFEST") plist) =
      .ok manifest) :
    (plist.lookup "FUNCTIONS").mapcar parseFn = .ok manifest.functions := by
  obtain ⟨_, ⟨⟩, hplist⟩ := (parseManifest_eq_ok _ _).mp hparse
  exact (mapcar_eq_ok parseFn_eq_ok).mpr hplist.functions.1

theorem parseFn_lispName {rustName : Datum} {lispName : String} {tail : Datum}
    {spec : FnSpec}
    (hparse : parseFn (.ofListTail [.keyword "FN", .keyword "RUST-NAME",
      rustName, .keyword "LISP-NAME"] (.cons (.string lispName) tail)) =
        .ok spec) :
    spec.lispName = lispName := by
  obtain ⟨_, ⟨⟩, hplist⟩ := (parseFn_eq_ok _ _).mp hparse
  exact (Datum.string.inj hplist.lispName).symm

theorem leading_writes {host : ReadHost} {α : Type} {text : α → String}
    {datum : α → Datum} {sep : String} (hsep : Separator sep) {xs : List α}
    (hwrites : ∀ x ∈ xs, Writes host (text x) [datum x]) :
    ∃ objects,
      (∀ elems stack rest,
        run host (.reading (.elements elems :: stack) .between)
            ((leading sep (xs.map text)).toList ++ rest) =
          run host (.reading (.elements (elems ++ objects) :: stack) .between)
            rest) ∧
      List.Forall₂ (fun object datum => sanitize object = .ok datum) objects
        (xs.map datum) := by
  induction xs with
  | nil =>
      refine ⟨[], fun elems stack rest => ?_, .nil⟩
      simp [leading]
  | cons x xs ih =>
      obtain ⟨firsts, hreads, hfirsts⟩ := hwrites x List.mem_cons_self
      obtain ⟨objects, hrun, hdata⟩ :=
        ih fun y hy => hwrites y (List.mem_cons_of_mem x hy)
      refine ⟨firsts ++ objects, ?_, List.rel_append hfirsts hdata⟩
      intro elems stack rest
      simp only [List.map_cons, leading, String.toList_append,
        List.append_assoc]
      rw [hreads.before_separator hsep, hrun, List.append_assoc]

namespace ModuleDecl

variable {host : ReadHost} {case : CaseMapping} (m : ModuleDecl case)
  (build : RuntimeBuild)

/-- The manifest's text around the Lisp name of one function. -/
theorem manifestStr_around {before after : List Export} {e : Export}
    (hsplit : m.fns = before ++ e :: after) :
    ∃ more, (m.manifestStr build).toList =
      '(' :: ((m.headerText build).toList ++ ("\n ".toList ++
        '(' :: ((leading "\n  " (before.map fun e =>
            renderFn (genMetaConst (e.exported case)))).toList ++
          '(' :: ((fnHead (genMetaConst (e.exported case))).toList ++
            (" ".toList ++ '"' :: ((e.lispName case).toList ++
              '"' :: more)))))) := by
  obtain ⟨inner, hinner⟩ := renderFn_head (genMetaConst (e.exported case))
  obtain ⟨outer, houter⟩ := join_append_cons "\n  "
    (renderFn (genMetaConst (e.exported case)))
    (before.map fun e => renderFn (genMetaConst (e.exported case)))
    (after.map fun e => renderFn (genMetaConst (e.exported case)))
  have hfns : m.fnMetas.map renderFn =
      (before.map fun e => renderFn (genMetaConst (e.exported case))) ++
        renderFn (genMetaConst (e.exported case)) ::
          after.map fun e => renderFn (genMetaConst (e.exported case)) := by
    rw [fnMetas, hsplit, List.map_map, List.map_append, List.map_cons]
    rfl
  have hname : (genMetaConst (e.exported case)).lispName = e.lispName case :=
    rfl
  refine ⟨inner.toList ++ (outer.toList ++ "))\n".toList), ?_⟩
  rw [manifestStr_eq, hfns, houter, hinner, hname]
  simp only [String.toList_append, String.reduceToList, List.append_assoc,
    List.cons_append, List.nil_append]

theorem lookup_functions (functions tail : Datum) :
    ∃ plist, Datum.ofListTail (m.headerData build) (.cons functions tail) =
        .cons (.keyword "RULISP-MANIFEST") plist ∧
      plist.lookup "FUNCTIONS" = functions := by
  unfold headerData identityData
  cases m.onDump <;> exact ⟨_, rfl, rfl⟩

/-- The first function whose name has a backslash has another name in
whatever `parse-manifest` returns. -/
theorem lispName_misread {before after : List Export} {e : Export}
    (hsplit : m.fns = before ++ e :: after)
    (hbefore : ∀ e' ∈ before, '\\' ∉ (e'.lispName case).toList)
    (hescape : '\\' ∈ (e.lispName case).toList) {parsed : Manifest}
    (hparse : parseManifestString host (m.manifestStr build) = .ok parsed) :
    ∃ spec, parsed.functions[before.length]? = some spec ∧
      spec.lispName ≠ e.lispName case := by
  obtain ⟨more, htext⟩ := m.manifestStr_around build hsplit
  obtain ⟨header, hheader, hheaderData⟩ :
    Writes host (m.headerText build) (m.headerData build) :=
    m.header_writes build
  have hwrites : ∀ e' ∈ before,
      Writes host (renderFn (genMetaConst (e'.exported case)))
        [(genMetaConst (e'.exported case)).datum] :=
    fun e' he' =>
      renderFn_writes e'.plainFields (e'.lispName_plain (hbefore e' he'))
  have hentrySep : Separator "\n  " := separator_line 2
  obtain ⟨entries, hentries, hentriesData⟩ := leading_writes hentrySep hwrites
  have hrustName : Plain (genMetaConst (e.exported case)).rustName :=
    e.plainFields.rustName
  obtain ⟨head, hhead, hheadData⟩ : Writes host _ _ := fnHead_writes hrustName
  have hline : Separator "\n " := separator_line 1
  obtain ⟨object, hsafe, hrest⟩ := LispResult.bind_eq_ok.mp hparse
  obtain ⟨form, hform, hparsed⟩ := LispResult.bind_eq_ok.mp hrest
  have hrun : run host (.reading [] .between) (m.manifestStr build).toList =
      .ok object := by
    unfold safeRead readFromString at hsafe
    split at hsafe
    · rename_i object' hread
      cases hsafe
      exact hread
    · cases hsafe
  rw [htext, run_open, hheader.before_separator hline, run_open, hentries,
    run_open, hhead.before_separator separator_space, run_openString] at hrun
  simp only [List.nil_append] at hrun
  obtain ⟨fns, ⟨fn, ⟨next, ⟨value, hne, rfl⟩, fnTail, rfl⟩, fnsTail, rfl⟩,
    tail, rfl⟩ := string_misread e.lispName_quote hescape hrun
  obtain ⟨fnsDatum, tailDatum, hfns, rfl⟩ :=
    sanitize_ofListTail_cons hheaderData hform
  obtain ⟨fnDatum, fnsTailDatum, hfn, rfl⟩ :=
    sanitize_ofListTail_cons hentriesData hfns
  obtain ⟨valueDatum, fnTailDatum, hvalue, rfl⟩ :=
    sanitize_ofListTail_cons hheadData hfn
  cases hvalue
  obtain ⟨plist, hplist, hlookup⟩ :=
    m.lookup_functions build (.ofListTail
      (before.map fun e => (genMetaConst (e.exported case)).datum)
      (.cons (.ofListTail [.keyword "FN", .keyword "RUST-NAME",
        .string (genMetaConst (e.exported case)).rustName,
        .keyword "LISP-NAME"] (.cons (.string value) fnTailDatum))
        fnsTailDatum)) tailDatum
  rw [hplist] at hparsed
  have hfunctions := parseManifest_functions hparsed
  rw [hlookup] at hfunctions
  obtain ⟨spec, hget, hspec⟩ := mapcar_ofListTail hfunctions
  rw [List.length_map] at hget
  exact ⟨spec, hget, parseFn_lispName hspec ▸ hne⟩

theorem plain_of_roundTrips (hround : m.RoundTrips build host) :
    ∀ e ∈ m.fns, '\\' ∉ (e.lispName case).toList := by
  intro e he hescape
  have hsome : (m.fns.find? fun e =>
      decide ('\\' ∈ (e.lispName case).toList)).isSome := by
    rw [List.find?_isSome]
    exact ⟨e, he, decide_eq_true hescape⟩
  obtain ⟨first, hfirst⟩ := Option.isSome_iff_exists.mp hsome
  obtain ⟨hbad, before, after, hsplit, hbefore⟩ :=
    List.find?_eq_some_iff_append.mp hfirst
  have hclean : ∀ e' ∈ before, '\\' ∉ (e'.lispName case).toList := by
    intro e' he'
    simpa using hbefore e' he'
  obtain ⟨spec, hget, hne⟩ := m.lispName_misread build hsplit hclean
    (of_decide_eq_true hbad) hround
  have hdeclared : (m.manifest build).functions[before.length]? =
      some (genMetaConst (first.exported case)).spec := by
    simp [manifest, fnMetas, hsplit]
  rw [hdeclared] at hget
  cases hget
  exact hne rfl

end ModuleDecl

/-- For any host, any build of the runtime and any module of distinct Lisp
names that the macros accept, in any layout. -/
theorem manifest_round_trip_iff (host : ReadHost) (build : RuntimeBuild)
    {case : CaseMapping} (m : CheckedModule case) :
    m.RoundTrips build host ↔
      ∀ e ∈ m.fns, ∀ v ∈ e.kind.explicitName, '\\' ∉ v.toList := by
  constructor
  · intro hround e he v hv hescape
    exact m.plain_of_roundTrips build hround e he
      (e.lispName_escape.mpr ⟨v, hv, hescape⟩)
  · intro hplain
    refine (m.roundTrips_iff_checked build ?_).mpr m.checked
    intro e he hescape
    obtain ⟨v, hv, hmem⟩ := e.lispName_escape.mp hescape
    exact hplain e he v hv hmem

/-! ## A constructor named with a backslash -/

theorem lowercase_isNameChar :
    ∀ n < 26, isNameChar (Char.ofNat (65 + n + 32)) = true := by
  decide

/-- Only ASCII letters have a case. -/
def asciiCase : CaseMapping where
  isUppercase := Char.isUpper
  toLowercase := fun c =>
    if 65 ≤ c.toNat ∧ c.toNat ≤ 90 then [Char.ofNat (c.toNat + 32)] else [c]
  lowerName := by
    intro c hc
    split
    · rename_i hupper
      have hlower := lowercase_isNameChar (c.toNat - 65) (by omega)
      have hcode : 65 + (c.toNat - 65) + 32 = c.toNat + 32 := by omega
      rw [hcode] at hlower
      simp [hlower]
    · simp [hc]

/-- `#[rulisp(constructor, name = "make\\bag")]` on `Bag::new`. -/
def backslashModule : CheckedModule asciiCase where
  name := "demo"
  version := "0.1.0"
  handles := [{ doc := none, name := "Bag", isName := by decide }]
  fns :=
    [{ doc := none
       name := "new"
       kind := .constructor "Bag" (some "make\\bag")
       params := []
       result := .handle "Bag"
       error := none
       isName := by decide
       selfTy := by decide
       explicitName := by decide
       paramNames := by decide
       paramHandles := by decide
       resultHandle := by decide
       errorName := by decide }]
  onDump := none
  isName := by decide
  isVersion := by decide
  symbols := fun _ he _ he' => List.inj_on_of_nodup_map (by decide) he he'
  onDumpFn := nofun
  checked := ⟨by decide, by decide, nofun⟩

def linuxBuild : RuntimeBuild where
  rulispVersion := "0.8.0"
  target := "x86_64-unknown-linux-gnu"
  isVersion := by decide
  isTarget := by decide

/-- The loader binds `makebag`. -/
theorem manifest_round_trip_fails_backslash :
    ¬ backslashModule.RoundTrips linuxBuild plainHost := by
  intro hround
  have hclean := backslashModule.plain_of_roundTrips linuxBuild hround
  exact absurd (hclean _ List.mem_cons_self) (by decide)

end Rulisp
