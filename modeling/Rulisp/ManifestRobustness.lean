import Mathlib.Data.Fin.VecNotation
import Rulisp.ReadForms
import Rulisp.WrapperShape

/-!
# Manifest texts of any kind

From the text that is offered as a manifest to the end of phase 1 of
`%commit-generation`: whether the loader comes to an end, and whether what it
signals is one of rulisp's own conditions.  `%sanitize` follows labels into
circles, `getf` meets lists that are no plists, `:errors` may be the empty
string, and a handle's name may be a symbol; apart from these and the types
with improper tails, every text is read or refused.
-/

namespace Rulisp

section Case

variable [LispCase]

/-- `parse-manifest` of a text and phase 1 of `%commit-generation` of its
result; `none` if `%sanitize` needs more than `fuel` nested calls. -/
def prepareText (reader : FormReader) (host : LoadHost) (library : Library)
    (registry : Registry) (crate : Crate) (image : LibraryImage)
    (text : String) (fuel : ℕ) : Option (LispResult Prepared) :=
  match reader text with
  | .error e => some (manifestError [.text ("unreadable manifest: " ++ e)])
  | .ok form =>
      (form.sanitize fuel form.root).map fun sanitized => do
        let datum ← sanitized
        let manifest ← parseManifest datum
        prepareGeneration host library registry crate image manifest

/-! ## What preparation needs -/

/-- The symbols that are looked up before the functions'. -/
structure SymbolsResolve (image : LibraryImage) (m : Manifest) : Prop where
  lastError : m.pfx ++ "last_error" ∈ image.exports
  dealloc : m.pfx ++ "dealloc" ∈ image.exports
  onDump : ∀ symbol ∈ m.onDump, m.pfx ++ symbol ∈ image.exports
  frees : ∀ h ∈ m.handles, m.pfx ++ h.free ∈ image.exports

/-- The handle's class belongs to no other crate. -/
def OwnsClass (host : LoadHost) (registry : Registry) (crate : Crate)
    (h : HandleSpec) : Prop :=
  ∀ sym, host.intern crate.package (stringUpcase h.lispName) = .ok sym →
    (registry.classOwner sym).getD crate.name = crate.name

/-- Wherever phase 1 comes to, it finds what it needs. -/
def PrepareSafe (host : LoadHost) (registry : Registry) (crate : Crate)
    (image : LibraryImage) (m : Manifest) : Prop :=
  SymbolsResolve image m → m.errors ≠ .string "" ∧
    ((∀ h ∈ m.handles, OwnsClass host registry crate h) →
      Reached (FnBinds image m) (FnSafe image m) m.functions)

/-- What is read from the text has no circle that `%sanitize` enters, its
datum is sound for `parse-manifest`, and the manifest it describes for
phase 1. -/
def TextSafe (reader : FormReader) (host : LoadHost) (registry : Registry)
    (crate : Crate) (image : LibraryImage) (text : String) : Prop :=
  ∀ form, reader text = .ok form → form.Settles ∧
    ∀ datum, form.Unfolds form.root datum → ManifestSound datum ∧
      ∀ m, ManifestRead datum m → PrepareSafe host registry crate image m

/-! ## Phase 1 -/

section Preparation

variable {host : LoadHost} {library : Library} {registry : Registry}
  {crate : Crate} {image : LibraryImage} {m : Manifest}

omit [LispCase] in
theorem prepareOnDump_ok_iff {pfx crateName : String} {onDump : Option String} :
    (∃ ptr, prepareOnDump (image.resolve library pfx crateName) onDump =
      .ok ptr) ↔ ∀ symbol ∈ onDump, pfx ++ symbol ∈ image.exports := by
  cases onDump with
  | none =>
      exact iff_of_true ⟨none, rfl⟩ fun _ h =>
        absurd h (Option.not_mem_none _)
  | some symbol =>
      rw [prepareOnDump, LispResult.bind_pure_ok_iff, resolve_ok_iff]
      simp only [Option.mem_def, Option.some.injEq, forall_eq']

omit [LispCase] in
theorem tame_prepareOnDump (pfx crateName : String) (onDump : Option String) :
    Tame (prepareOnDump (image.resolve library pfx crateName) onDump) := by
  cases onDump with
  | none => exact tame_ok _
  | some symbol =>
      exact tame_bind_pure.mpr (tame_resolve _ _ _)

omit [LispCase] in
theorem prepareFree_ok_iff {pfx crateName : String} (h : HandleSpec) :
    (∃ entry, prepareFree (image.resolve library pfx crateName) h =
      .ok entry) ↔ pfx ++ h.free ∈ image.exports := by
  rw [prepareFree, LispResult.bind_pure_ok_iff, resolve_ok_iff]

omit [LispCase] in
theorem tame_prepareFree (pfx crateName : String) (h : HandleSpec) :
    Tame (prepareFree (image.resolve library pfx crateName) h) :=
  tame_bind_pure.mpr (tame_resolve _ _ _)

omit [LispCase] in
theorem tame_collect_of_forall {α β : Type} {f : α → LispResult β}
    (htame : ∀ x, Tame (f x)) (xs : List α) : Tame (collect f xs) := by
  induction xs with
  | nil => exact tame_ok []
  | cons x xs ih =>
      exact tame_bind.mpr ⟨htame x, fun _ _ =>
        tame_bind.mpr ⟨ih, fun _ _ => tame_ok _⟩⟩

variable (hintern : ∀ name, ∃ sym, host.intern crate.package name = .ok sym)

include hintern

/-- A list of names is gone through; the empty string is no list. -/
theorem prepareErrors_ok_iff (hread : ErrorsRead m.errors) :
    (∃ conditions, m.errors.mapcar (prepareErrorCondition host crate) =
      .ok conditions) ↔ m.errors ≠ .string "" := by
  rcases hread with hempty | ⟨names, hnames⟩
  · rw [hempty]
    exact iff_of_false nofun (fun hne => hne rfl)
  · rw [hnames]
    refine iff_of_true ?_ ?_
    · apply mapcar_ofList_ok
      intro x hx
      obtain ⟨name, -, rfl⟩ := List.mem_map.mp hx
      obtain ⟨sym, hsym⟩ := hintern (camelToKebab name)
      exact ⟨_, LispResult.bind_eq_ok.mpr ⟨sym, hsym, rfl⟩⟩
    · cases names <;> exact nofun

theorem tame_prepareErrors (hread : ErrorsRead m.errors) :
    Tame (m.errors.mapcar (prepareErrorCondition host crate)) ↔
      m.errors ≠ .string "" := by
  constructor
  · rintro htame hempty
    rw [hempty] at htame
    exact not_tame_hostError _ htame
  · intro hne
    obtain ⟨conditions, hok⟩ := (prepareErrors_ok_iff hintern hread).mpr hne
    rw [hok]
    exact tame_ok _

theorem prepareClass_ok_iff (h : HandleSpec) :
    (∃ entry, prepareClass host registry crate h = .ok entry) ↔
      OwnsClass host registry crate h := by
  obtain ⟨sym, hsym⟩ := hintern (stringUpcase h.lispName)
  simp only [prepareClass, OwnsClass, LispResult.bind_eq_ok, hsym,
    Except.ok.injEq, exists_eq_left', forall_eq', errorUnless_eq_ok]
  constructor
  · rintro ⟨_, _, howner, -⟩
    exact howner
  · intro howner
    exact ⟨_, (), howner, rfl⟩

theorem tame_prepareClass (h : HandleSpec) :
    Tame (prepareClass host registry crate h) := by
  obtain ⟨sym, hsym⟩ := hintern (stringUpcase h.lispName)
  rw [prepareClass, hsym]
  exact tame_bind.mpr ⟨tame_ok _, fun _ _ =>
    tame_bind.mpr ⟨tame_errorUnless _ _, fun _ _ => tame_pure _⟩⟩

theorem tame_prepareGeneration (hcompile : ∀ f, host.compileRefusal f = none)
    (hread : ErrorsRead m.errors) :
    Tame (prepareGeneration host library registry crate image m) ↔
      PrepareSafe host registry crate image m := by
  have hfrees : (∃ table, collect (prepareFree
      (image.resolve library m.pfx crate.name)) m.handles = .ok table) ↔ _ :=
    collect_ok_iff fun h _ => prepareFree_ok_iff h
  have hclasses : (∃ classes, collect (prepareClass host registry crate)
      m.handles = .ok classes) ↔ _ :=
    collect_ok_iff fun h _ => prepareClass_ok_iff hintern h
  have hfns : ∀ ctx, Tame (collect (prepareFn host crate m ctx
      (image.resolve library m.pfx crate.name)) m.functions) ↔
      Reached (FnBinds image m) (FnSafe image m) m.functions := fun ctx =>
    tame_collect (fun f _ => prepareFn_ok_iff hintern hcompile)
      (fun f _ => tame_prepareFn hintern hcompile)
  simp only [prepareGeneration, tame_bind, tame_resolve, tame_prepareOnDump,
    tame_collect_of_forall (tame_prepareFree _ _),
    tame_collect_of_forall (tame_prepareClass hintern),
    tame_prepareErrors hintern hread, hfns, tame_pure, implies_true, and_true,
    true_and]
  constructor
  · rintro htame ⟨hlast, hdealloc, hdump, hfree⟩
    obtain ⟨last, hlast⟩ := resolve_ok_iff.mpr hlast
    obtain ⟨dealloc, hdealloc⟩ := resolve_ok_iff.mpr hdealloc
    obtain ⟨dump, hdump⟩ := prepareOnDump_ok_iff.mpr hdump
    obtain ⟨table, htable⟩ := hfrees.mpr hfree
    obtain ⟨hne, hrest⟩ :=
      htame last hlast dealloc hdealloc dump hdump table htable
    obtain ⟨conditions, hconditions⟩ :=
      (prepareErrors_ok_iff hintern hread).mpr hne
    refine ⟨hne, fun howned => ?_⟩
    obtain ⟨classes, hclasses⟩ := hclasses.mpr howned
    exact hrest conditions hconditions classes hclasses
  · intro hsafe last hlast dealloc hdealloc dump hdump table htable
    obtain ⟨hne, hrest⟩ := hsafe ⟨resolve_ok_iff.mp ⟨last, hlast⟩,
      resolve_ok_iff.mp ⟨dealloc, hdealloc⟩,
      prepareOnDump_ok_iff.mp ⟨dump, hdump⟩, hfrees.mp ⟨table, htable⟩⟩
    exact ⟨hne, fun _ _ classes hok => hrest (hclasses.mp ⟨classes, hok⟩)⟩

end Preparation

/-! ## From the text on -/

section Text

variable {reader : FormReader} {host : LoadHost} {library : Library}
  {registry : Registry} {crate : Crate} {image : LibraryImage} {text : String}

/-- A text that is read is prepared from the datum that its form unfolds to,
if `%sanitize` ends. -/
theorem prepareText_of_read {form : ReadForm}
    (hread : reader text = .ok form) :
    (∃ fuel result, prepareText reader host library registry crate image text
      fuel = some result ∧ Tame result) ↔
      form.Settles ∧ ∀ datum, form.Unfolds form.root datum →
        Tame (parseManifest datum >>= fun m =>
          prepareGeneration host library registry crate image m) := by
  rw [← ReadForm.sanitize_ends_iff]
  simp only [prepareText, hread, Option.map_eq_some_iff]
  constructor
  · rintro ⟨fuel, _, ⟨sanitized, hsanitized, rfl⟩, htame⟩
    refine ⟨⟨fuel, sanitized, hsanitized⟩, fun datum hdatum => ?_⟩
    obtain ⟨fuel', hdatum⟩ := ReadForm.sanitize_eq_ok_iff.mpr hdatum
    obtain rfl := ReadForm.sanitize_unique hsanitized hdatum
    exact htame
  · rintro ⟨⟨fuel, sanitized, hsanitized⟩, htame⟩
    refine ⟨fuel, _, ⟨sanitized, hsanitized, rfl⟩, ?_⟩
    cases sanitized with
    | error e =>
        obtain ⟨message, rfl⟩ := ReadForm.sanitize_refusal hsanitized
        exact tame_manifestError message
    | ok datum =>
        exact htame datum (ReadForm.sanitize_eq_ok_iff.mp ⟨fuel, hsanitized⟩)

/-- Where no label is read, the text goes through `parse-manifest`. -/
theorem prepareText_of_tree {readHost : LispReader.ReadHost}
    (hreader : reader text = treeReader readHost text) :
    ∃ fuel, prepareText reader host library registry crate image text fuel =
      some (parseManifestString readHost text >>= fun m =>
        prepareGeneration host library registry crate image m) := by
  unfold parseManifestString safeRead prepareText
  rw [hreader, treeReader]
  cases LispReader.readFromString readHost text with
  | error e => exact ⟨0, rfl⟩
  | ok object =>
      obtain ⟨fuel, hsanitized⟩ :=
        ReadForm.sanitize_of_shows (ReadForm.ofObject_shows object)
      refine ⟨fuel, ?_⟩
      simp only [Except.map, hsanitized, Option.map_some, bind_assoc]
      rfl

omit [LispCase] in
theorem parseManifestString_of_sanitize {readHost : LispReader.ReadHost}
    {datum : Datum}
    (hread : (LispReader.readFromString readHost text).toOption.map sanitize =
      some (.ok datum)) :
    parseManifestString readHost text = parseManifest datum := by
  unfold parseManifestString safeRead
  cases hobject : LispReader.readFromString readHost text with
  | error e =>
      rw [hobject] at hread
      cases hread
  | ok object =>
      rw [hobject] at hread
      have hsanitized : sanitize object = .ok datum := Option.some.inj hread
      change sanitize object >>= parseManifest = parseManifest datum
      rw [hsanitized]
      rfl

/-- A manifest text is read or refused, and never leads to a condition of the
host or to a loop, if and only if it is safe. -/
theorem manifest_robust_iff
    (hintern : ∀ name, ∃ sym, host.intern crate.package name = .ok sym)
    (hcompile : ∀ f, host.compileRefusal f = none) :
    (∃ fuel result, prepareText reader host library registry crate image text
      fuel = some result ∧ Tame result) ↔
      TextSafe reader host registry crate image text := by
  unfold TextSafe
  cases hread : reader text with
  | error e =>
      have hended : prepareText reader host library registry crate image text
          0 = some (manifestError [.text ("unreadable manifest: " ++ e)]) := by
        simp only [prepareText, hread]
      exact iff_of_true ⟨0, _, hended, tame_manifestError _⟩ nofun
  | ok form =>
      simp only [prepareText_of_read hread, Except.ok.injEq, forall_eq',
        tame_bind, tame_parseManifest, parseManifest_eq_ok]
      refine and_congr_right fun _ => forall₂_congr fun datum _ => ?_
      refine and_congr_right fun _ => forall₂_congr fun m hm => ?_
      obtain ⟨plist, -, hplist⟩ := hm
      exact tame_prepareGeneration hintern hcompile hplist.strings

end Text

end Case

/-! ## Texts with labels and without values -/

attribute [local instance] standardCase

/-- `#1=(:rulisp-manifest . #1#)`. -/
def circularForm : ReadForm where
  size := 2
  node := ![.cons 1 0, .keyword "RULISP-MANIFEST"]
  root := 0

/-- `(:rulisp-manifest :schema)`. -/
def oddForm : ReadForm where
  size := 5
  node := ![.cons 1 2, .keyword "RULISP-MANIFEST", .cons 3 4,
    .keyword "SCHEMA", .null]
  root := 0

/-- A text for `demoManifest`. -/
def demoManifestText : String :=
  String.join ["(:rulisp-manifest :schema 1 :abi 1 ", ":crate \"demo\" ",
    ":prefix \"demo_rulisp_\" ", ":handles ((:handle ", ":rust-name \"Bag\" ",
    ":lisp-name \"bag\" ", ":free \"free_bag\")) ", ":functions ((:fn ",
    ":rust-name \"new\" ", ":lisp-name \"make-bag\" ", ":symbol \"make_bag\" ",
    ":params () ", ":result (:handle \"Bag\")) ", "(:fn :rust-name \"len\" ",
    ":lisp-name \"bag-len\" ", ":symbol \"bag_len\" ", ":params ((",
    ":name \"self\" ", ":type (:handle \"Bag\"))) ", ":result :u64)))"]

/-- A reader that knows labels as far as these texts. -/
def demoReader : FormReader := fun text =>
  if text = "#1=(:rulisp-manifest . #1#)" then .ok circularForm
  else if text = "(:rulisp-manifest :schema)" then .ok oddForm
  else treeReader plainHost text

def demoImage : LibraryImage where
  exports := demoExports
  abiVersion := 1
  raw := ""
  form := .ok demoManifest

/-- What a load of the demo artifact makes of a text. -/
def demoPrepare : String → ℕ → Option (LispResult Prepared) :=
  prepareText demoReader (demoHost demoExports) ⟨1, 1⟩ .empty
    (makeCrate "demo" "DEMO") demoImage

theorem demoReader_demoManifestText :
    demoReader demoManifestText = treeReader plainHost demoManifestText := by
  have hother : ∀ text ∈ ["#1=(:rulisp-manifest . #1#)",
      "(:rulisp-manifest :schema)"], demoManifestText ≠ text := by
    intro text hmem hsame
    have hchars : demoManifestText.toList = text.toList := by rw [hsame]
    rw [demoManifestText, String.toList_join] at hchars
    clear hsame
    revert text
    decide +kernel
  rw [demoReader, if_neg (hother _ (by decide)), if_neg (hother _ (by decide))]

theorem LispResult.exists_ok {α : Type} {x : LispResult α}
    (hsome : x.toOption.isSome = true) : ∃ a, x = .ok a := by
  cases x with
  | error e => cases hsome
  | ok a => exact ⟨a, rfl⟩

theorem sanitize_demoManifestText :
    (LispReader.readFromString plainHost demoManifestText).toOption.map
      sanitize = some (.ok demoManifest) := by
  unfold LispReader.readFromString
  rw [demoManifestText, String.toList_join]
  decide +kernel

theorem demoPrepare_prepares :
    ∃ fuel prepared, demoPrepare demoManifestText fuel =
      some (.ok prepared) := by
  obtain ⟨fuel, hprepare⟩ := @prepareText_of_tree _ demoReader
    (demoHost demoExports) ⟨1, 1⟩ .empty (makeCrate "demo" "DEMO") demoImage
    demoManifestText plainHost demoReader_demoManifestText
  rw [parseManifestString_of_sanitize sanitize_demoManifestText] at hprepare
  have hsome : (parseManifest demoManifest >>= fun m =>
      prepareGeneration (demoHost demoExports) ⟨1, 1⟩ .empty
        (makeCrate "demo" "DEMO") demoImage m).toOption.isSome = true := by
    decide +kernel
  obtain ⟨prepared, hprepared⟩ := LispResult.exists_ok hsome
  rw [hprepared] at hprepare
  exact ⟨fuel, prepared, hprepare⟩

/-- A manifest with a handle and two functions is safe, being prepared. -/
theorem demoPrepare_safe :
    TextSafe demoReader (demoHost demoExports) .empty
      (makeCrate "demo" "DEMO") demoImage demoManifestText := by
  obtain ⟨fuel, prepared, hprepared⟩ := demoPrepare_prepares
  exact (manifest_robust_iff (fun _ => ⟨_, rfl⟩) fun _ => rfl).mp
    ⟨fuel, _, hprepared, tame_ok _⟩

/-- `%sanitize` goes round the circle for ever, and `getf` finds a plist
without a value. -/
theorem demoPrepare_corrupt :
    (¬∃ fuel result, demoPrepare "#1=(:rulisp-manifest . #1#)" fuel =
      some result ∧ Tame result) ∧
    ¬∃ fuel result, demoPrepare "(:rulisp-manifest :schema)" fuel =
      some result ∧ Tame result := by
  constructor
  · intro hended
    have hread : demoReader "#1=(:rulisp-manifest . #1#)" = .ok circularForm :=
      rfl
    obtain ⟨hsettles, -⟩ := (prepareText_of_read hread).mp hended
    have hround : circularForm.Enters circularForm.root circularForm.root :=
      ⟨(1 : Fin 2), (0 : Fin 2), rfl,
        .inr ⟨rfl, .keyword "RULISP-MANIFEST", .keyword rfl⟩⟩
    exact hsettles.no_circle _ .refl (.single hround)
  · intro hended
    have hread : demoReader "(:rulisp-manifest :schema)" = .ok oddForm := rfl
    obtain ⟨-, htame⟩ := (prepareText_of_read hread).mp hended
    have hodd : oddForm.Unfolds oddForm.root
        (.cons (.keyword "RULISP-MANIFEST")
          (.cons (.keyword "SCHEMA") .nil)) :=
      .cons rfl (.keyword rfl) (.cons rfl (.keyword rfl) (.null rfl))
    exact htame _ hodd .malformedPlist rfl

end Rulisp
