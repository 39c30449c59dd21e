import Rulisp.ManifestRobustness

/-!
# Which manifests are accepted

The texts from which phase 1 of `%commit-generation` makes a generation: the
grammar of manifests, and of what the manifest names, the library, the
registry and the types of the functions.
-/

namespace Rulisp

section Case

variable [LispCase]

/-- What phase 1 asks of a manifest that has been parsed. -/
structure PhaseOne (host : LoadHost) (registry : Registry) (crate : Crate)
    (image : LibraryImage) (m : Manifest) : Prop where
  resolves : SymbolsResolve image m
  errors : m.errors ≠ .string ""
  owns : ∀ h ∈ m.handles, OwnsClass host registry crate h
  binds : ∀ f ∈ m.functions, FnBinds image m f

section PhaseOne

variable {host : LoadHost} {library : Library} {registry : Registry}
  {crate : Crate} {image : LibraryImage} {m : Manifest}

theorem prepareGeneration_ok_iff
    (hintern : ∀ name, ∃ sym, host.intern crate.package name = .ok sym)
    (hcompile : ∀ f, host.compileRefusal f = none)
    (hread : ErrorsRead m.errors) :
    (∃ prepared, prepareGeneration host library registry crate image m =
      .ok prepared) ↔ PhaseOne host registry crate image m := by
  have hfrees : (∃ table, collect (prepareFree
      (image.resolve library m.pfx crate.name)) m.handles = .ok table) ↔ _ :=
    collect_ok_iff fun h _ => prepareFree_ok_iff h
  have hclasses : (∃ classes, collect (prepareClass host registry crate)
      m.handles = .ok classes) ↔ _ :=
    collect_ok_iff fun h _ => prepareClass_ok_iff hintern h
  have hfns : ∀ ctx, (∃ fns, collect (prepareFn host crate m ctx
      (image.resolve library m.pfx crate.name)) m.functions = .ok fns) ↔
      ∀ f ∈ m.functions, FnBinds image m f := fun ctx =>
    collect_ok_iff fun f _ => prepareFn_ok_iff hintern hcompile
  simp only [prepareGeneration, LispResult.bind_eq_ok]
  constructor
  · rintro ⟨_, last, hlast, dealloc, hdealloc, dump, hdump, table, htable,
      conditions, hconditions, classes, hclass, fns, hfn, -⟩
    exact
      { resolves :=
          ⟨resolve_ok_iff.mp ⟨last, hlast⟩,
            resolve_ok_iff.mp ⟨dealloc, hdealloc⟩,
            prepareOnDump_ok_iff.mp ⟨dump, hdump⟩, hfrees.mp ⟨table, htable⟩⟩
        errors := (prepareErrors_ok_iff hintern hread).mp
          ⟨conditions, hconditions⟩
        owns := hclasses.mp ⟨classes, hclass⟩
        binds := (hfns _).mp ⟨fns, hfn⟩ }
  · rintro ⟨⟨hlast, hdealloc, hdump, hfree⟩, hne, howns, hbinds⟩
    obtain ⟨last, hlast⟩ := resolve_ok_iff.mpr hlast
    obtain ⟨dealloc, hdealloc⟩ := resolve_ok_iff.mpr hdealloc
    obtain ⟨dump, hdump⟩ := prepareOnDump_ok_iff.mpr hdump
    obtain ⟨table, htable⟩ := hfrees.mpr hfree
    obtain ⟨conditions, hconditions⟩ :=
      (prepareErrors_ok_iff hintern hread).mpr hne
    obtain ⟨classes, hclass⟩ := hclasses.mpr howns
    obtain ⟨fns, hfn⟩ := (hfns _).mpr hbinds
    exact ⟨_, last, hlast, dealloc, hdealloc, dump, hdump, table, htable,
      conditions, hconditions, classes, hclass, fns, hfn, rfl⟩

end PhaseOne

/-- From a text to a generation: the text is read, `%sanitize` unfolds it to a
datum of the grammar, and what that describes meets phase 1. -/
theorem manifest_accepted_iff (reader : FormReader) (host : LoadHost)
    (library : Library) (registry : Registry) (crate : Crate)
    (image : LibraryImage) (text : String)
    (hintern : ∀ name, ∃ sym, host.intern crate.package name = .ok sym)
    (hcompile : ∀ f, host.compileRefusal f = none) :
    (∃ fuel prepared, prepareText reader host library registry crate image
      text fuel = some (.ok prepared)) ↔
      ∃ (form : ReadForm) (datum : Datum) (m : Manifest),
        reader text = .ok form ∧ form.Unfolds form.root datum ∧
        ManifestRead datum m ∧ PhaseOne host registry crate image m := by
  constructor
  · rintro ⟨fuel, prepared, hprepared⟩
    unfold prepareText at hprepared
    split at hprepared
    · cases hprepared
    · rename_i form hread
      obtain ⟨_, hsanitized, hdatum⟩ := Option.map_eq_some_iff.mp hprepared
      obtain ⟨datum, rfl, hparse⟩ := LispResult.bind_eq_ok.mp hdatum
      obtain ⟨m, hm, hprepare⟩ := LispResult.bind_eq_ok.mp hparse
      have hgrammar := (parseManifest_eq_ok datum m).mp hm
      obtain ⟨plist, -, hplist⟩ := id hgrammar
      exact ⟨form, datum, m, hread,
        ReadForm.sanitize_eq_ok_iff.mp ⟨fuel, hsanitized⟩, hgrammar,
        (prepareGeneration_ok_iff hintern hcompile hplist.strings).mp
          ⟨prepared, hprepare⟩⟩
  · rintro ⟨form, datum, m, hread, hunfolds, hgrammar, hphase⟩
    obtain ⟨fuel, hsanitized⟩ := ReadForm.sanitize_eq_ok_iff.mpr hunfolds
    have hm := (parseManifest_eq_ok datum m).mpr hgrammar
    obtain ⟨plist, -, hplist⟩ := hgrammar
    obtain ⟨prepared, hprepare⟩ :=
      (prepareGeneration_ok_iff hintern hcompile hplist.strings).mpr hphase
    refine ⟨fuel, prepared, ?_⟩
    simp only [prepareText, hread, hsanitized, Option.map_some,
      Option.some.injEq]
    exact LispResult.bind_eq_ok.mpr ⟨datum, rfl,
      LispResult.bind_eq_ok.mpr ⟨m, hm, hprepare⟩⟩

end Case

attribute [local instance] standardCase

/-- The demo artifact's manifest, with a handle and two functions, is accepted
and so meets phase 1; the one without a value has no datum of the grammar. -/
theorem manifest_accepted_demo :
    (∃ (form : ReadForm) (datum : Datum) (m : Manifest),
      demoReader demoManifestText = .ok form ∧
        form.Unfolds form.root datum ∧ ManifestRead datum m ∧
        PhaseOne (demoHost demoExports) .empty (makeCrate "demo" "DEMO")
          demoImage m) ∧
    ¬∃ fuel prepared, demoPrepare "(:rulisp-manifest :schema)" fuel =
      some (.ok prepared) := by
  have haccepted := fun text => manifest_accepted_iff demoReader
    (demoHost demoExports) ⟨1, 1⟩ .empty (makeCrate "demo" "DEMO") demoImage
    text (fun _ => ⟨_, rfl⟩) fun _ => rfl
  constructor
  · exact (haccepted demoManifestText).mp demoPrepare_prepares
  · rw [demoPrepare, haccepted]
    rintro ⟨form, datum, m, hread, hunfolds, hgrammar, -⟩
    obtain rfl : oddForm = form := by
      cases hread
      rfl
    obtain ⟨fuel, hsanitize⟩ := ReadForm.sanitize_eq_ok_iff.mpr hunfolds
    have hodd : oddForm.sanitize 4 oddForm.root = some (.ok (.cons
        (.keyword "RULISP-MANIFEST") (.cons (.keyword "SCHEMA") .nil))) :=
      rfl
    cases ReadForm.sanitize_unique hsanitize hodd
    cases (parseManifest_eq_ok _ m).mpr hgrammar

end Rulisp
