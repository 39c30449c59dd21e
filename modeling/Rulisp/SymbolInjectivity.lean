import Rulisp.SharedPackage

/-!
# Names of a manifest and the symbols they become

The names of functions, handle types and error types are compared in the
manifest as they are spelled, and become symbols after a change of case or
the kebab transformation.  Here is which of them become one symbol.
-/

namespace Rulisp

section Case

variable [LispCase]

/-! ## The kebab transformation -/

/-- What `camel-to-kebab` makes of the characters after the first. -/
def kebabTail (chars : List Char) : List Char :=
  chars.flatMap fun ch => if upperCaseP ch then ['-', ch] else [charUpcase ch]

/-- The same characters, but for an upper-case letter of one that is a hyphen
and the lower-case letter in the other. -/
inductive KebabAlike : List Char → List Char → Prop
  | nil : KebabAlike [] []
  | same (ch : Char) {left right : List Char}
      (hrest : KebabAlike left right) :
      KebabAlike (ch :: left) (ch :: right)
  | splitRight (ch : Char) (hupper : upperCaseP ch = true)
      {left right : List Char} (hrest : KebabAlike left right) :
      KebabAlike (ch :: left) ('-' :: charDowncase ch :: right)
  | splitLeft (ch : Char) (hupper : upperCaseP ch = true)
      {left right : List Char} (hrest : KebabAlike left right) :
      KebabAlike ('-' :: charDowncase ch :: left) (ch :: right)

/-- The first characters are the same up to case, the others alike. -/
def SpelledAlike (left right : String) : Prop :=
  match left.toList, right.toList with
  | [], [] => True
  | first :: rest, first' :: rest' =>
      charUpcase first = charUpcase first' ∧ KebabAlike rest rest'
  | _, _ => False

@[simp] theorem kebabTail_cons_upper {ch : Char} (hupper : upperCaseP ch = true)
    (rest : List Char) : kebabTail (ch :: rest) = '-' :: ch :: kebabTail rest := by
  simp [kebabTail, hupper]

@[simp] theorem kebabTail_cons_other {ch : Char} (hother : upperCaseP ch = false)
    (rest : List Char) :
    kebabTail (ch :: rest) = charUpcase ch :: kebabTail rest := by
  simp [kebabTail, hother]

theorem kebabTail_cons_ne_nil (ch : Char) (rest : List Char) :
    kebabTail (ch :: rest) ≠ [] := by
  cases hupper : upperCaseP ch with
  | true => simp [hupper]
  | false => simp [hupper]

/-- Only an upper-case letter begins with a letter of its own. -/
theorem eq_hyphen_of_charUpcase {ch : Char} (hother : upperCaseP ch = false)
    (hhyphen : charUpcase ch = '-') : ch = '-' := by
  apply LispCase.upcase_inj ch '-' hother upperCaseP_hyphen
  rw [hhyphen, charUpcase_hyphen]

/-- The rest of a text whose kebab form begins with an upper-case letter. -/
theorem kebabTail_eq_upper {ch : Char} (hupper : upperCaseP ch = true)
    {rest target : List Char} (heq : kebabTail rest = ch :: target) :
    ∃ tail, rest = charDowncase ch :: tail ∧ kebabTail tail = target := by
  cases rest with
  | nil => cases heq
  | cons first tail =>
      cases hfirst : upperCaseP first with
      | true =>
          rw [kebabTail_cons_upper hfirst] at heq
          have hhyphen : '-' = ch := (List.cons.inj heq).1
          rw [← hhyphen, upperCaseP_hyphen] at hupper
          cases hupper
      | false =>
          rw [kebabTail_cons_other hfirst] at heq
          obtain ⟨hch, htail⟩ := List.cons.inj heq
          have hlower : first = charDowncase ch := by
            apply LispCase.upcase_inj _ _ hfirst (LispCase.downcase_not_upper ch)
            rw [hch, LispCase.upcase_downcase ch hupper]
          exact ⟨tail, by rw [hlower], htail⟩

theorem KebabAlike.kebabTail_eq {left right : List Char}
    (halike : KebabAlike left right) : kebabTail left = kebabTail right := by
  have hsplit : ∀ {ch : Char} {rest : List Char}, upperCaseP ch = true →
      kebabTail ('-' :: charDowncase ch :: rest) =
        '-' :: ch :: kebabTail rest := by
    intro ch rest hupper
    rw [kebabTail_cons_other upperCaseP_hyphen, charUpcase_hyphen,
      kebabTail_cons_other (LispCase.downcase_not_upper ch),
      LispCase.upcase_downcase ch hupper]
  induction halike with
  | nil => rfl
  | same ch _ ih =>
      cases hupper : upperCaseP ch with
      | true => rw [kebabTail_cons_upper hupper, kebabTail_cons_upper hupper, ih]
      | false => rw [kebabTail_cons_other hupper, kebabTail_cons_other hupper, ih]
  | splitRight ch hupper _ ih =>
      rw [hsplit hupper, kebabTail_cons_upper hupper, ih]
  | splitLeft ch hupper _ ih =>
      rw [hsplit hupper, kebabTail_cons_upper hupper, ih]

theorem kebabAlike_of_kebabTail_eq (left right : List Char)
    (heq : kebabTail left = kebabTail right) : KebabAlike left right := by
  match left, right with
  | [], [] => exact .nil
  | [], ch :: right => exact absurd heq.symm (kebabTail_cons_ne_nil ch right)
  | ch :: left, [] => exact absurd heq (kebabTail_cons_ne_nil ch left)
  | ch :: left, ch' :: right =>
      cases hupper : upperCaseP ch with
      | true =>
          cases hupper' : upperCaseP ch' with
          | true =>
              rw [kebabTail_cons_upper hupper, kebabTail_cons_upper hupper'] at heq
              simp only [List.cons.injEq, true_and] at heq
              rw [heq.1]
              exact .same ch' (kebabAlike_of_kebabTail_eq left right heq.2)
          | false =>
              rw [kebabTail_cons_upper hupper, kebabTail_cons_other hupper'] at heq
              obtain ⟨hhyphen, hrest⟩ := List.cons.inj heq
              have hch' := eq_hyphen_of_charUpcase hupper' hhyphen.symm
              obtain ⟨tail, rfl, htail⟩ := kebabTail_eq_upper hupper hrest.symm
              rw [hch']
              exact .splitRight ch hupper
                (kebabAlike_of_kebabTail_eq left tail htail.symm)
      | false =>
          cases hupper' : upperCaseP ch' with
          | true =>
              rw [kebabTail_cons_other hupper, kebabTail_cons_upper hupper'] at heq
              obtain ⟨hhyphen, hrest⟩ := List.cons.inj heq
              have hch := eq_hyphen_of_charUpcase hupper hhyphen
              obtain ⟨tail, rfl, htail⟩ := kebabTail_eq_upper hupper' hrest
              rw [hch]
              exact .splitLeft ch' hupper'
                (kebabAlike_of_kebabTail_eq tail right htail)
          | false =>
              rw [kebabTail_cons_other hupper, kebabTail_cons_other hupper'] at heq
              obtain ⟨hfirst, hrest⟩ := List.cons.inj heq
              rw [LispCase.upcase_inj ch ch' hupper hupper' hfirst]
              exact .same ch' (kebabAlike_of_kebabTail_eq left right hrest)
termination_by left.length

theorem camelToKebab_tail (chars : List Char) (i : ℕ) (hi : 0 < i) :
    ((chars.zipIdx i).flatMap fun (ch, i) =>
      if 0 < i && upperCaseP ch then ['-', charUpcase ch] else [charUpcase ch]) =
        kebabTail chars := by
  induction chars generalizing i with
  | nil => rfl
  | cons ch rest ih =>
      have hrest := ih (i + 1) (Nat.succ_pos i)
      rw [List.zipIdx_cons, List.flatMap_cons, hrest]
      cases hupper : upperCaseP ch with
      | true =>
          simp [kebabTail, hi, hupper, LispCase.upcase_of_upper ch hupper]
      | false => simp [kebabTail, hupper]

theorem camelToKebab_cons (ch : Char) (rest : List Char) :
    camelToKebab (String.ofList (ch :: rest)) =
      String.ofList (charUpcase ch :: kebabTail rest) := by
  unfold camelToKebab
  rw [String.toList_ofList, List.zipIdx_cons, List.flatMap_cons,
    camelToKebab_tail rest (0 + 1) Nat.one_pos]
  rfl

/-- Two names become one exactly if they are spelled alike. -/
theorem camelToKebab_eq_iff (left right : String) :
    camelToKebab left = camelToKebab right ↔ SpelledAlike left right := by
  obtain ⟨left, rfl⟩ : ∃ chars, left = String.ofList chars :=
    ⟨left.toList, by simp⟩
  obtain ⟨right, rfl⟩ : ∃ chars, right = String.ofList chars :=
    ⟨right.toList, by simp⟩
  have hnil : camelToKebab (String.ofList []) = String.ofList [] := rfl
  unfold SpelledAlike
  simp only [String.toList_ofList]
  cases left with
  | nil =>
      cases right with
      | nil => simp
      | cons ch right =>
          rw [hnil, camelToKebab_cons, String.ofList_inj]
          simp
  | cons ch left =>
      cases right with
      | nil =>
          rw [hnil, camelToKebab_cons, String.ofList_inj]
          simp
      | cons ch' right =>
          rw [camelToKebab_cons, camelToKebab_cons, String.ofList_inj,
            List.cons.injEq]
          constructor
          · rintro ⟨hfirst, hrest⟩
            exact ⟨hfirst, kebabAlike_of_kebabTail_eq left right hrest⟩
          · rintro ⟨hfirst, hrest⟩
            exact ⟨hfirst, hrest.kebabTail_eq⟩

/-! ## Symbols of one package -/

/-- The error types of a manifest. -/
def Manifest.errorNames (manifest : Manifest) : List String :=
  manifest.errors.elements.filterMap fun
    | .string e => some e
    | _ => none

/-- What `intern` finds or makes under a name. -/
def LoadHost.symbolOf (host : LoadHost) (package name : String) : Symbol where
  home := (host.home package name).toOption.getD ""
  name := name

omit [LispCase] in
theorem LoadHost.symbolOf_injective (host : LoadHost) (package : String) :
    Function.Injective (host.symbolOf package) := by
  intro name name' heq
  exact congrArg Symbol.name heq

omit [LispCase] in
theorem LoadHost.eq_symbolOf {host : LoadHost} {package name : String}
    {sym : Symbol} (hintern : host.intern package name = .ok sym) :
    sym = host.symbolOf package name := by
  obtain ⟨home, hhome, hsym⟩ := LispResult.bind_eq_ok.mp hintern
  cases hsym
  simp [symbolOf, hhome, Except.toOption]

omit [LispCase] in
/-- The symbols of collected values, as those of the elements' names. -/
theorem map_eq_symbolOf {host : LoadHost} {package : String} {α β : Type}
    {f : α → LispResult β} {name : α → String} {key : β → Symbol}
    {xs : List α} {ys : List β} (hcollect : collect f xs = .ok ys)
    (hname : ∀ x y, f x = .ok y →
      host.intern package (name x) = .ok (key y)) :
    ys.map key = (xs.map name).map (host.symbolOf package) := by
  have hpairs := collect_eq_ok hcollect
  clear hcollect
  induction hpairs with
  | nil => rfl
  | cons hfirst _ ih =>
      have hkey := LoadHost.eq_symbolOf (hname _ _ hfirst)
      simp only [List.map_cons, hkey, ih]

theorem mapcar_symbolOf {host : LoadHost} {crate : Crate} {errors : Datum}
    {entries : List (String × Symbol)}
    (hmapcar : errors.mapcar (prepareErrorCondition host crate) =
      .ok entries) :
    entries = (errors.elements.filterMap fun
      | .string e => some e
      | _ => none).map fun e =>
        (e, host.symbolOf crate.package (camelToKebab e)) := by
  induction errors generalizing entries with
  | nil =>
      cases hmapcar
      rfl
  | cons first rest _ ih =>
      obtain ⟨entry, hentry, hmapcar⟩ := LispResult.bind_eq_ok.mp hmapcar
      obtain ⟨others, hothers, hmapcar⟩ := LispResult.bind_eq_ok.mp hmapcar
      cases hmapcar
      have hrest := ih hothers
      cases first with
      | string e =>
          obtain ⟨sym, hsym, hentry⟩ := LispResult.bind_eq_ok.mp hentry
          cases hentry
          rw [LoadHost.eq_symbolOf hsym, hrest]
          rfl
      | _ => cases hentry
  | _ => cases hmapcar

/-- The symbols that a load publishes, read off the manifest. -/
structure Prepared.Symbols (prepared : Prepared) (manifest : Manifest)
    (symbolOf : String → Symbol) : Prop where
  functions : prepared.fns.map (·.1) =
    (manifest.functions.map fun f => stringUpcase f.lispName).map symbolOf
  handles : prepared.classes.map (·.1) =
    (manifest.handles.map fun h => stringUpcase h.lispName).map symbolOf
  errors : prepared.ctx.errorConditions =
    manifest.errorNames.map fun e => (e, symbolOf (camelToKebab e))

theorem prepareGeneration_symbols {host : LoadHost} {library : Library}
    {registry : Registry} {crate : Crate} {image : LibraryImage}
    {manifest : Manifest} {prepared : Prepared}
    (hprepare : prepareGeneration host library registry crate image manifest =
      .ok prepared) :
    prepared.Symbols manifest (host.symbolOf crate.package) := by
  obtain ⟨_, -, hprepare⟩ := LispResult.bind_eq_ok.mp hprepare
  obtain ⟨_, -, hprepare⟩ := LispResult.bind_eq_ok.mp hprepare
  obtain ⟨_, -, hprepare⟩ := LispResult.bind_eq_ok.mp hprepare
  obtain ⟨_, -, hprepare⟩ := LispResult.bind_eq_ok.mp hprepare
  obtain ⟨conditions, hconditions, hprepare⟩ :=
    LispResult.bind_eq_ok.mp hprepare
  obtain ⟨classes, hclasses, hprepare⟩ := LispResult.bind_eq_ok.mp hprepare
  obtain ⟨fns, hfns, hprepare⟩ := LispResult.bind_eq_ok.mp hprepare
  cases hprepare
  constructor
  · exact map_eq_symbolOf hfns fun _ _ hfn => (prepareFn_intern hfn).1
  · exact map_eq_symbolOf hclasses fun _ _ hclass =>
      (prepareClass_eq_ok hclass).1
  · exact mapcar_symbolOf hconditions

/-! ## Injectivity -/

/-- Different functions have different symbols, and so have different handle
types, different error types, and a handle type and an error type. -/
structure Prepared.Apart (prepared : Prepared) : Prop where
  functions : (prepared.fns.map (·.1)).Nodup
  handles : (prepared.classes.map (·.1)).Nodup
  errors : ∀ e ∈ prepared.ctx.errorConditions,
    ∀ e' ∈ prepared.ctx.errorConditions, e.1 ≠ e'.1 → e.2 ≠ e'.2
  classes : ∀ h ∈ prepared.classes,
    ∀ e ∈ prepared.ctx.errorConditions, h.1 ≠ e.2

instance (prepared : Prepared) : Decidable prepared.Apart :=
  decidable_of_iff
    ((prepared.fns.map (·.1)).Nodup ∧ (prepared.classes.map (·.1)).Nodup ∧
      (∀ e ∈ prepared.ctx.errorConditions,
        ∀ e' ∈ prepared.ctx.errorConditions, e.1 ≠ e'.1 → e.2 ≠ e'.2) ∧
      ∀ h ∈ prepared.classes, ∀ e ∈ prepared.ctx.errorConditions, h.1 ≠ e.2)
    ⟨fun ⟨hfunctions, hhandles, herrors, hclasses⟩ =>
        ⟨hfunctions, hhandles, herrors, hclasses⟩,
      fun hapart =>
        ⟨hapart.functions, hapart.handles, hapart.errors, hapart.classes⟩⟩

/-- No two Lisp names of functions, or of handles, differ in case only, no two
error types are spelled alike, and no handle has an error's kebab name. -/
structure Manifest.SpelledApart (manifest : Manifest) : Prop where
  functions : (manifest.functions.map fun f => stringUpcase f.lispName).Nodup
  handles : (manifest.handles.map fun h => stringUpcase h.lispName).Nodup
  errors : ∀ e ∈ manifest.errorNames, ∀ e' ∈ manifest.errorNames,
    SpelledAlike e e' → e = e'
  classes : ∀ h ∈ manifest.handles, ∀ e ∈ manifest.errorNames,
    stringUpcase h.lispName ≠ camelToKebab e

theorem Prepared.apart_iff {prepared : Prepared} {manifest : Manifest}
    {symbolOf : String → Symbol} (hinjective : Function.Injective symbolOf)
    (hsymbols : prepared.Symbols manifest symbolOf) :
    prepared.Apart ↔ manifest.SpelledApart := by
  have hclasses : ∀ p : Symbol → Prop, (∀ h ∈ prepared.classes, p h.1) ↔
      ∀ h ∈ manifest.handles, p (symbolOf (stringUpcase h.lispName)) := by
    intro p
    have hmem : (∀ sym ∈ prepared.classes.map (·.1), p sym) ↔
        ∀ sym ∈ (manifest.handles.map fun h =>
          stringUpcase h.lispName).map symbolOf, p sym := by
      rw [hsymbols.handles]
    simpa using hmem
  have herrors : ∀ p : String × Symbol → Prop,
      (∀ e ∈ prepared.ctx.errorConditions, p e) ↔
        ∀ e ∈ manifest.errorNames, p (e, symbolOf (camelToKebab e)) := by
    intro p
    rw [hsymbols.errors]
    simp
  have hdistinct : prepared.Apart ↔
      (prepared.fns.map (·.1)).Nodup ∧ (prepared.classes.map (·.1)).Nodup ∧
      (∀ e ∈ manifest.errorNames, ∀ e' ∈ manifest.errorNames,
        e ≠ e' → symbolOf (camelToKebab e) ≠ symbolOf (camelToKebab e')) ∧
      ∀ h ∈ manifest.handles, ∀ e ∈ manifest.errorNames,
        symbolOf (stringUpcase h.lispName) ≠ symbolOf (camelToKebab e) := by
    constructor
    · intro hapart
      refine ⟨hapart.functions, hapart.handles, ?_, ?_⟩
      · intro e he
        exact (herrors _).mp ((herrors _).mp hapart.errors e he)
      · intro h hh
        exact (herrors _).mp ((hclasses fun sym =>
          ∀ e ∈ prepared.ctx.errorConditions, sym ≠ e.2).mp hapart.classes h hh)
    · rintro ⟨hfunctions, hhandles, hdiffer, hmixes⟩
      refine ⟨hfunctions, hhandles, ?_, ?_⟩
      · refine (herrors _).mpr fun e he => ?_
        exact (herrors _).mpr (hdiffer e he)
      · refine (hclasses fun sym =>
          ∀ e ∈ prepared.ctx.errorConditions, sym ≠ e.2).mpr fun h hh => ?_
        exact (herrors _).mpr (hmixes h hh)
  rw [hdistinct, hsymbols.functions, hsymbols.handles,
    List.nodup_map_iff hinjective, List.nodup_map_iff hinjective]
  constructor
  · rintro ⟨hfunctions, hhandles, hdiffer, hmixes⟩
    refine ⟨hfunctions, hhandles, ?_, ?_⟩
    · intro e he e' he' halike
      by_contra hne
      exact hdiffer e he e' he' hne
        (congrArg symbolOf ((camelToKebab_eq_iff e e').mpr halike))
    · intro h hh e he hsame
      exact hmixes h hh e he (congrArg symbolOf hsame)
  · intro hapart
    refine ⟨hapart.functions, hapart.handles, ?_, ?_⟩
    · intro e he e' he' hne hsame
      exact hne (hapart.errors e he e' he'
        ((camelToKebab_eq_iff e e').mp (hinjective hsame)))
    · intro h hh e he hsame
      exact hapart.classes h hh e he (hinjective hsame)

/-- What keeps the names apart is for: the type gates of two Rust types ask
for different classes, and every export is bound to its own wrapper. -/
structure Prepared.Unconfused (prepared : Prepared) (manifest : Manifest)
    (classOf : Datum → LispResult Symbol) (registry : Registry)
    (crate : Crate) : Prop where
  gates : ∀ h ∈ manifest.handles, ∀ h' ∈ manifest.handles,
    h.rustName ≠ h'.rustName → ∀ cls cls',
      classOf (.string h.rustName) = .ok cls →
      classOf (.string h'.rustName) = .ok cls' → cls ≠ cls'
  bound : ∀ entry ∈ prepared.fns,
    (registry.published crate.name crate.package prepared
      crate.symbols).functions entry.1 = some (.wrapper entry.2.2)

theorem Manifest.SpelledApart.gates {manifest : Manifest} {host : LoadHost}
    {package : String} (hapart : manifest.SpelledApart) {token token' : Datum}
    {cls cls' : Symbol}
    (hcls : classNameFor manifest.handles (host.intern package) token =
      .ok cls)
    (hcls' : classNameFor manifest.handles (host.intern package) token' =
      .ok cls')
    (hsame : cls = cls') :
    token.stringDesignator = token'.stringDesignator := by
  obtain ⟨h, hmem, htoken, hintern⟩ := classNameFor_eq_ok hcls
  obtain ⟨h', hmem', htoken', hintern'⟩ := classNameFor_eq_ok hcls'
  have hnames : stringUpcase h.lispName = stringUpcase h'.lispName := by
    rw [LoadHost.eq_symbolOf hintern, LoadHost.eq_symbolOf hintern'] at hsame
    exact host.symbolOf_injective package hsame
  have hentry := List.inj_on_of_nodup_map hapart.handles hmem hmem' hnames
  rw [htoken, htoken', hentry]

/-- The symbols of an accepted manifest are apart exactly if its names are
spelled apart; then no type gate lets another Rust type's handle through and
every export is bound to its wrapper. -/
theorem symbol_injectivity_iff (host : LoadHost) (library : Library)
    (registry : Registry) (crate : Crate) (image : LibraryImage)
    (manifest : Manifest) (prepared : Prepared)
    (hprepare : prepareGeneration host library registry crate image manifest =
      .ok prepared) :
    (prepared.Apart ↔ manifest.SpelledApart) ∧
      (manifest.SpelledApart →
        prepared.Unconfused manifest
          (classNameFor manifest.handles (host.intern crate.package))
          registry crate) := by
  have hapart := Prepared.apart_iff (host.symbolOf_injective crate.package)
    (prepareGeneration_symbols hprepare)
  refine ⟨hapart, fun hspelled => ⟨?_, ?_⟩⟩
  · intro h _ h' _ hne cls cls' hcls hcls' hsame
    have htokens := hspelled.gates hcls hcls' hsame
    simp only [Datum.stringDesignator, Option.some.injEq] at htokens
    exact hne htokens
  · rintro ⟨sym, doc, w⟩ hentry
    exact registry.functions_published_of_mem crate.name crate.package
      (hapart.mpr hspelled).functions hentry

end Case

/-! ## Names that collapse -/

attribute [local instance] standardCase

def namedFn (name symbol : String) : Datum :=
  .cons (.keyword "FN") (.ofPlist
    [("RUST-NAME", .string name), ("LISP-NAME", .string name),
      ("SYMBOL", .string symbol), ("PARAMS", .nil),
      ("RESULT", .keyword "UNIT")])

/-- A manifest with these handles, errors and functions. -/
def namesManifest (handles errors functions : List String) : Datum :=
  .cons (.keyword "RULISP-MANIFEST") (.ofPlist
    [("SCHEMA", .integer 1), ("ABI", .integer 1), ("CRATE", .string "demo"),
      ("PREFIX", .string "demo_rulisp_"),
      ("ERRORS", .ofList (errors.map .string)),
      ("HANDLES", .ofList (handles.map fun name =>
        .cons (.keyword "HANDLE") (.ofPlist
          [("RUST-NAME", .string name), ("LISP-NAME", .string name),
            ("FREE", .string "free_bag")]))),
      ("FUNCTIONS", .ofList (functions.map fun name =>
        namedFn name "make_bag"))])

/-- Parsing and preparation of such a manifest. -/
def namesPrepared (handles errors functions : List String) :
    LispResult Prepared := do
  let manifest ← parseManifest (namesManifest handles errors functions)
  prepareGeneration (demoHost demoExports) { serial := 1, session := 0 } .empty
    (makeCrate "demo" "DEMO")
    { exports := demoExports, abiVersion := 1, raw := "", form := .ok .nil }
    manifest

/-- Whether the symbols of such a manifest are apart, if it is accepted. -/
def namesApart (handles errors functions : List String) : Option Bool :=
  (namesPrepared handles errors functions).toOption.map fun prepared =>
    decide prepared.Apart

theorem namesApart_eq_some {handles errors functions : List String}
    {apart : Bool} (hapart : namesApart handles errors functions = some apart) :
    ∃ prepared, namesPrepared handles errors functions = .ok prepared ∧
      (prepared.Apart ↔ apart = true) := by
  unfold namesApart at hapart
  cases hprepared : namesPrepared handles errors functions with
  | error _ =>
      rw [hprepared] at hapart
      cases hapart
  | ok prepared =>
      rw [hprepared] at hapart
      cases hapart
      exact ⟨prepared, rfl, by simp⟩

/-- A manifest whose names are spelled apart, and stay apart as symbols. -/
theorem symbol_injectivity_iff_bag :
    ∃ manifest prepared,
      namesPrepared ["bag"] ["ParseError"] ["add", "sub"] = .ok prepared ∧
      (prepared.Apart ↔ manifest.SpelledApart) ∧ manifest.SpelledApart ∧
      prepared.Unconfused manifest
        (classNameFor manifest.handles
          ((demoHost demoExports).intern (makeCrate "demo" "DEMO").package))
        .empty (makeCrate "demo" "DEMO") := by
  have hnames : namesApart ["bag"] ["ParseError"] ["add", "sub"] =
      some true := by decide +kernel
  obtain ⟨prepared, hprepared, hiff⟩ := namesApart_eq_some hnames
  obtain ⟨manifest, -, hprepare⟩ := LispResult.bind_eq_ok.mp hprepared
  obtain ⟨hapart, hunconfused⟩ := symbol_injectivity_iff _ _ _ _ _ manifest
    prepared hprepare
  have hspelled : manifest.SpelledApart := hapart.mp (hiff.mpr rfl)
  exact ⟨manifest, prepared, hprepared, hapart, hspelled,
    hunconfused hspelled⟩

/-- Accepted manifests in which two functions, two handle types, two error
types, and a handle type and an error type become one symbol. -/
theorem symbols_collapse :
    (∃ prepared, namesPrepared [] [] ["add", "ADD"] = .ok prepared ∧
      ¬ prepared.Apart) ∧
    (∃ prepared, namesPrepared ["bag", "Bag"] [] [] = .ok prepared ∧
      ¬ prepared.Apart) ∧
    (∃ prepared, namesPrepared [] ["IoError", "Io-error"] [] = .ok prepared ∧
      ¬ prepared.Apart) ∧
    ∃ prepared, namesPrepared ["parse-error"] ["ParseError"] [] =
        .ok prepared ∧
      ¬ prepared.Apart := by
  have hcollapse : ∀ {handles errors functions : List String},
      namesApart handles errors functions = some false →
      ∃ prepared, namesPrepared handles errors functions = .ok prepared ∧
        ¬ prepared.Apart := by
    intro handles errors functions hapart
    obtain ⟨prepared, hprepared, hiff⟩ := namesApart_eq_some hapart
    exact ⟨prepared, hprepared, by simp [hiff]⟩
  refine ⟨?_, ?_, ?_, ?_⟩
  · exact hcollapse (by decide +kernel)
  · exact hcollapse (by decide +kernel)
  · exact hcollapse (by decide +kernel)
  · exact hcollapse (by decide +kernel)

end Rulisp
