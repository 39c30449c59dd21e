import Rulisp.LoadAtomicity
import Rulisp.LoaderInvariant

/-!
# Reloads and the identity of a crate

`reload-crate` looks a crate up under one normalization of its name, compares
the artifact's name with it under a second one, and enters the generation
under the artifact's name as it stands.  A reload keeps to its crate exactly
when the three agree on the artifact at hand.
-/

namespace Rulisp

section Case

variable [LispCase]

namespace Registry

/-- The reload of one entry in `%restore-all-crates`, with the stub that
follows a condition. -/
def restoreCrate (registry : Registry) (host : LoadHost)
    (refusal : PublicationRefusal) (library : Library) (name : String)
    (crate : Crate) : Registry × LispResult String :=
  match registry.loadCrateLocked host refusal library
    (LoaderState.restoreArgs name crate) with
  | (next, .ok returned) => (next, .ok returned)
  | (next, .error e) => (next.stubCrate name e, .error e)

/-- The outcome is a condition or the crate registered as `name`, one
generation on; every other entry is what it was, and there is no new one. -/
structure ReloadsOnly (registry : Registry) (name : String) (crate : Crate)
    (outcome : Registry × LispResult String) : Prop where
  returned : ∀ found, outcome.2 = .ok found →
    found = name ∧
      outcome.1.generationOf name = some (crate.generation + 1)
  others : ∀ other, other ≠ name →
    outcome.1.crates other = registry.crates other
  order : outcome.1.crateLoadOrder = registry.crateLoadOrder

/-- What `reload-crate` promises of the crate registered as `name`. -/
def ReloadKeeps (registry : Registry) (name : String) (crate : Crate)
    (designator : CrateDesignator) (path : Option String) (host : LoadHost)
    (refusal : PublicationRefusal) (library : Library) : Prop :=
  (∃ found, registry.resolveCrate designator = .ok found) ∧
    registry.ReloadsOnly name crate
      ((LoadCall.reload designator path).run registry host refusal library)

/-- The artifact is refused before the registry is touched, or it carries the
name of the crate, or the name of another entry for which preparation
refuses it. -/
def Confined (registry : Registry) (name : String) (host : LoadHost)
    (library : Library) (args : LoadArgs) : Prop :=
  match admitLoad host args with
  | .error _ => True
  | .ok opened =>
      opened.manifest.crate = name ∨
        (registry.crates opened.manifest.crate).isSome = true ∧
          (prepareGeneration host library
            (registry.register opened.manifest.crate args.package)
            (registry.crateFor opened.manifest.crate args.package)
            opened.image opened.manifest).isOk = false

/-- The lookup of a reload finds an entry, and the load is confined. -/
def ReloadConfined (registry : Registry) (name : String)
    (designator : CrateDesignator) (path : Option String) (host : LoadHost)
    (library : Library) : Prop :=
  match (LoadCall.reload designator path).args registry with
  | .error _ => False
  | .ok args => registry.Confined name host library args

/-! ## What publication leaves alone -/

omit [LispCase] in
theorem publishAll_frame {View : Type} (view : Registry → View)
    {name package : String}
    (hkeeps : ∀ registry op,
      view (registry.publish name package op) = view registry)
    (refusal : PublicationRefusal) (ops : List PublishOp)
    (registry : Registry) :
    view (publishAll name package refusal ops registry).1 = view registry := by
  induction ops generalizing refusal registry with
  | nil => rfl
  | cons op rest ih =>
      unfold publishAll
      split
      · rw [ih, hkeeps]
      · cases refusal with
        | none => rw [ih, hkeeps]
        | some refused =>
            obtain ⟨count, kind⟩ := refused
            cases count with
            | zero => rfl
            | succ count => rw [ih, hkeeps]

omit [LispCase] in
theorem crates_publishAll_of_ne {name other : String} (package : String)
    (refusal : PublicationRefusal) (ops : List PublishOp)
    (registry : Registry) (hother : other ≠ name) :
    (publishAll name package refusal ops registry).1.crates other =
      registry.crates other := by
  apply publishAll_frame fun later : Registry => later.crates other
  intro later op
  rcases later.crates_publish name package op other with
    hsame | ⟨symbols, crate, -, hname, -⟩
  · exact hsame
  · exact absurd hname hother

omit [LispCase] in
theorem crateLoadOrder_publishAll (name package : String)
    (refusal : PublicationRefusal) (ops : List PublishOp)
    (registry : Registry) :
    (publishAll name package refusal ops registry).1.crateLoadOrder =
      registry.crateLoadOrder := by
  apply publishAll_frame fun later : Registry => later.crateLoadOrder
  intro later op
  cases op with
  | setSymbols symbols =>
      unfold publish
      cases later.crates name <;> rfl
  | _ => rfl

/-- A load whose slots are set leaves what its publication leaves. -/
theorem loadCrateLocked_committed {registry begun : Registry}
    {host : LoadHost} {library : Library} {args : LoadArgs} {commit : Commit}
    (refusal : PublicationRefusal)
    (hbegin : registry.beginLoad host library args = (begun, .ok commit)) :
    (registry.loadCrateLocked host refusal library args).1 =
        (publishAll commit.generation.crate commit.package refusal commit.ops
          begun).1 ∧
      ∀ found, (registry.loadCrateLocked host refusal library args).2 =
        .ok found → found = commit.generation.crate := by
  unfold loadCrateLocked
  simp only [hbegin]
  generalize publishAll commit.generation.crate commit.package refusal
    commit.ops begun = outcome
  obtain ⟨published, refused⟩ := outcome
  cases refused with
  | some kind => simp [hostError]
  | none =>
      cases host.sweepRefusal with
      | some kind => simp [hostError]
      | none => simp

/-! ## One reload -/

section Reload

variable {registry : Registry} {name : String} {crate : Crate}
  (hcrate : registry.crates name = some crate)

include hcrate

/-- A load that is prepared reloads the crate if the artifact has its name,
and changes another entry otherwise. -/
theorem reloadsOnly_of_prepared {host : LoadHost} {library : Library}
    {args : LoadArgs} {opened : Opened} {prepared : Prepared}
    (refusal : PublicationRefusal)
    (hadmitted : admitLoad host args = .ok opened)
    (hprepare : prepareGeneration host library
      (registry.register opened.manifest.crate args.package)
      (registry.crateFor opened.manifest.crate args.package)
      opened.image opened.manifest = .ok prepared) :
    registry.ReloadsOnly name crate
        (registry.loadCrateLocked host refusal library args) ↔
      opened.manifest.crate = name := by
  let canonical := opened.manifest.crate
  let entry := registry.crateFor canonical args.package
  let begun := (registry.register canonical args.package).setCrate canonical
    (entry.commitSlots host library opened prepared)
  let commit : Commit :=
    { generation :=
        { crate := canonical
          number := prepared.ctx.generation
          library := library
          manifest := opened.manifest }
      package := entry.package
      ops := publication prepared entry.symbols }
  have hbegin : registry.beginLoad host library args = (begun, .ok commit) := by
    simp only [beginLoad, hadmitted, hprepare, begun, commit, entry, canonical]
  obtain ⟨hleft, hfound⟩ := loadCrateLocked_committed refusal hbegin
  have hgeneration : (registry.loadCrateLocked host refusal library
      args).1.generationOf canonical = some (entry.generation + 1) := by
    rw [hleft, generationOf_publishAll]
    exact generationOf_beginLoad hbegin
  constructor
  · intro hreloads
    by_contra hother
    have hsame := hreloads.others canonical hother
    apply registry.generationOf_lt_crateFor canonical args.package
    rw [← hgeneration]
    simp only [generationOf, hsame]
  · intro hname
    have hentry : entry = crate := by
      simp [entry, canonical, crateFor, hname, hcrate]
    have hregistered : registry.register canonical args.package = registry :=
      register_eq_self _ (by simp [canonical, hname, hcrate])
    refine ⟨fun found hok => ⟨(hfound found hok).trans hname, ?_⟩, ?_, ?_⟩
    · rw [← hname, hgeneration, hentry]
    · intro other hother
      have hne : other ≠ canonical := fun heq => hother (heq.trans hname)
      rw [hleft, crates_publishAll_of_ne _ _ _ _ hne]
      simp only [begun, crates_setCrate, if_neg hne, hregistered]
    · rw [hleft, crateLoadOrder_publishAll]
      simp only [begun, hregistered, setCrate]

omit hcrate in
/-- A load that preparation refuses leaves a new entry, or nothing. -/
theorem reloadsOnly_of_refused {host : LoadHost} {library : Library}
    {args : LoadArgs} {opened : Opened} {e : LoadCondition}
    (refusal : PublicationRefusal)
    (hadmitted : admitLoad host args = .ok opened)
    (hprepare : prepareGeneration host library
      (registry.register opened.manifest.crate args.package)
      (registry.crateFor opened.manifest.crate args.package)
      opened.image opened.manifest = .error e) :
    registry.ReloadsOnly name crate
        (registry.loadCrateLocked host refusal library args) ↔
      (registry.crates opened.manifest.crate).isSome = true := by
  have hload : registry.loadCrateLocked host refusal library args =
      (registry.register opened.manifest.crate args.package, .error e) := by
    simp [loadCrateLocked, beginLoad, hadmitted, hprepare]
  rw [hload]
  constructor
  · intro hreloads
    have horder := hreloads.order
    cases hentry : registry.crates opened.manifest.crate with
    | some entry => rfl
    | none => simp [register, hentry, setCrate] at horder
  · intro hentry
    rw [register_eq_self _ hentry]
    exact ⟨fun found hok => by simp at hok, fun _ _ => rfl, rfl⟩

theorem reloadsOnly_iff (host : LoadHost) (refusal : PublicationRefusal)
    (library : Library) (args : LoadArgs) :
    registry.ReloadsOnly name crate
        (registry.loadCrateLocked host refusal library args) ↔
      registry.Confined name host library args := by
  unfold Confined
  cases hadmitted : admitLoad host args with
  | error e =>
      have hload : registry.loadCrateLocked host refusal library args =
          (registry, .error e) := by
        simp [loadCrateLocked, beginLoad, hadmitted]
      rw [hload]
      exact iff_of_true
        ⟨fun found hok => by simp at hok, fun _ _ => rfl, rfl⟩ trivial
  | ok opened =>
      simp only
      cases hprepare : prepareGeneration host library
        (registry.register opened.manifest.crate args.package)
        (registry.crateFor opened.manifest.crate args.package)
        opened.image opened.manifest with
      | error e =>
          rw [reloadsOnly_of_refused refusal hadmitted hprepare]
          have hown : opened.manifest.crate = name →
              (registry.crates opened.manifest.crate).isSome = true := by
            intro hname
            simp [hname, hcrate]
          simpa [Except.isOk, Except.toBool] using hown
      | ok prepared =>
          rw [reloadsOnly_of_prepared hcrate refusal hadmitted hprepare]
          simp [Except.isOk, Except.toBool]

omit hcrate in
omit [LispCase] in
/-- A stub changes the entry it is made for and no other. -/
theorem reloadsOnly_stubCrate (registry : Registry) (name : String)
    (crate : Crate) (next : Registry) (e : LoadCondition) :
    registry.ReloadsOnly name crate (next.stubCrate name e, .error e) ↔
      registry.ReloadsOnly name crate (next, .error e) := by
  have hothers : ∀ other, other ≠ name →
      (next.stubCrate name e).crates other = next.crates other := by
    intro other hother
    unfold stubCrate
    split
    · rfl
    · simp [setCrate, hother]
  have horder : (next.stubCrate name e).crateLoadOrder =
      next.crateLoadOrder := by
    unfold stubCrate
    split <;> rfl
  constructor
  · intro hstub
    exact ⟨fun found hok => by simp at hok,
      fun other hother => (hothers other hother).symm.trans
        (hstub.others other hother),
      horder.symm.trans hstub.order⟩
  · intro hnext
    exact ⟨fun found hok => by simp at hok,
      fun other hother => (hothers other hother).trans
        (hnext.others other hother),
      horder.trans hnext.order⟩

theorem reloadsOnly_restoreCrate_iff (host : LoadHost)
    (refusal : PublicationRefusal) (library : Library) :
    registry.ReloadsOnly name crate
        (registry.restoreCrate host refusal library name crate) ↔
      registry.Confined name host library
        (LoaderState.restoreArgs name crate) := by
  rw [← reloadsOnly_iff hcrate host refusal library]
  unfold restoreCrate
  cases registry.loadCrateLocked host refusal library
    (LoaderState.restoreArgs name crate) with
  | mk next result =>
      cases result with
      | ok found => rfl
      | error e => exact reloadsOnly_stubCrate registry name crate next e

theorem reloadKeeps_iff (designator : CrateDesignator) (path : Option String)
    (host : LoadHost) (refusal : PublicationRefusal) (library : Library) :
    registry.ReloadKeeps name crate designator path host refusal library ↔
      registry.ReloadConfined name designator path host library := by
  unfold ReloadKeeps ReloadConfined LoadCall.run
  cases hresolved : registry.resolveCrate designator with
  | error e =>
      have hargs : (LoadCall.reload designator path).args registry =
          .error e := by
        simp only [LoadCall.args, hresolved, bind, Except.bind]
      simp [hargs]
  | ok found =>
      have hargs : (LoadCall.reload designator path).args registry =
          .ok { path := path <|> found.2.sourcePath, crateArg := some found.1,
                package := none } := by
        simp only [LoadCall.args, hresolved, bind, Except.bind, pure,
          Except.pure]
      simp only [hargs, Except.ok.injEq, exists_eq', true_and]
      exact reloadsOnly_iff hcrate host refusal library _

end Reload

end Registry

open Registry in
/-- A reload of a registered crate, given the crate or its name, and its
reload on restore keep to that crate exactly if the lookup finds an entry and
the artifact is confined to the crate's. -/
theorem reload_identity_iff (registry : Registry) (name : String)
    (crate : Crate) (hcrate : registry.crates name = some crate)
    (path : Option String) (host : LoadHost) (refusal : PublicationRefusal)
    (library : Library) :
    (∀ designator ∈ [CrateDesignator.object name, .named name],
      registry.ReloadKeeps name crate designator path host refusal library ↔
        registry.ReloadConfined name designator path host library) ∧
    (registry.ReloadsOnly name crate
        (registry.restoreCrate host refusal library name crate) ↔
      registry.Confined name host library
        (LoaderState.restoreArgs name crate)) :=
  ⟨fun designator _ =>
      reloadKeeps_iff hcrate designator path host refusal library,
    reloadsOnly_restoreCrate_iff hcrate host refusal library⟩

end Case

/-! ## Names that the three normalizations tell apart -/

attribute [local instance] standardCase

/-- A manifest with nothing but a name. -/
def namedManifest (name pfx : String) : Datum :=
  .cons (.keyword "RULISP-MANIFEST") (.ofPlist
    [("SCHEMA", .integer 1), ("ABI", .integer 1), ("CRATE", .string name),
      ("PREFIX", .string pfx)])

/-- A host with an artifact of that name. -/
def namedHost (name pfx : String) : LoadHost :=
  { demoHost [] with
    dlopen := .ok
      { exports :=
          [pfx ++ "abi_version", pfx ++ "manifest", pfx ++ "last_error",
            pfx ++ "dealloc"]
        abiVersion := 1, raw := "", form := .ok (namedManifest name pfx) } }

/-- The registry after a first load of such an artifact. -/
def namedLoaded (name pfx : String) : Registry :=
  ((LoadCall.load "target/debug/lib.so" (some name) none).run .empty
    (namedHost name pfx) none { serial := 1, session := 0 }).1

/-- A crate `Demo` is not found under its own name; a crate `my-crate` whose
artifact now says `my_crate` is reloaded into a second entry. -/
theorem reload_identity_fails :
    (∃ crate, (namedLoaded "Demo" "Demo_rulisp_").crates "Demo" = some crate ∧
      ¬ (namedLoaded "Demo" "Demo_rulisp_").ReloadKeeps "Demo" crate
        (.named "Demo") none (namedHost "Demo" "Demo_rulisp_") none
        { serial := 2, session := 0 }) ∧
    ∃ crate,
      (namedLoaded "my-crate" "my_crate_rulisp_").crates "my-crate" =
        some crate ∧
      ¬ (namedLoaded "my-crate" "my_crate_rulisp_").ReloadKeeps "my-crate"
        crate (.object "my-crate") none
        (namedHost "my_crate" "my_crate_rulisp_") none
        { serial := 2, session := 0 } := by
  have hdemo : ((namedLoaded "Demo" "Demo_rulisp_").crates "Demo").isSome =
      true := by decide +kernel
  have hmine : ((namedLoaded "my-crate" "my_crate_rulisp_").crates
      "my-crate").isSome = true := by decide +kernel
  obtain ⟨demo, hdemo⟩ := Option.isSome_iff_exists.mp hdemo
  obtain ⟨mine, hmine⟩ := Option.isSome_iff_exists.mp hmine
  refine ⟨⟨demo, hdemo, ?_⟩, ⟨mine, hmine, ?_⟩⟩
  · rintro ⟨⟨found, hfound⟩, -⟩
    have hmissing : ((namedLoaded "Demo" "Demo_rulisp_").resolveCrate
        (.named "Demo")).isOk = false := by decide +kernel
    rw [hfound] at hmissing
    cases hmissing
  · rintro ⟨-, hreloads⟩
    have horder := hreloads.order
    revert horder
    decide +kernel

/-- A crate whose artifact keeps its lower-case name. -/
theorem reload_identity_iff_demo :
    ∃ crate, (namedLoaded "demo" "demo_rulisp_").crates "demo" = some crate ∧
      (namedLoaded "demo" "demo_rulisp_").ReloadKeeps "demo" crate
        (.named "demo") none (namedHost "demo" "demo_rulisp_") none
        { serial := 2, session := 0 } := by
  have hdemo : ((namedLoaded "demo" "demo_rulisp_").crates "demo").isSome =
      true := by decide +kernel
  obtain ⟨crate, hcrate⟩ := Option.isSome_iff_exists.mp hdemo
  refine ⟨crate, hcrate, ?_⟩
  refine ((reload_identity_iff _ "demo" crate hcrate none _ none _).1
    (.named "demo") (by simp)).mpr ?_
  have hargs : ((LoadCall.reload (.named "demo") none).args
      (namedLoaded "demo" "demo_rulisp_")).toOption.bind (fun args =>
        (admitLoad (namedHost "demo" "demo_rulisp_") args).toOption.map
          fun opened => opened.manifest.crate) = some "demo" := by
    decide +kernel
  obtain ⟨args, hargs, hadmitted⟩ := Option.bind_eq_some_iff.mp hargs
  obtain ⟨opened, hopened, hname⟩ := Option.map_eq_some_iff.mp hadmitted
  unfold Registry.ReloadConfined
  cases hreload : (LoadCall.reload (.named "demo") none).args
    (namedLoaded "demo" "demo_rulisp_") with
  | error e => simp [hreload, Except.toOption] at hargs
  | ok found =>
      simp only [hreload, Except.toOption, Option.some.injEq] at hargs
      subst hargs
      simp only [Registry.Confined]
      cases hadmission : admitLoad (namedHost "demo" "demo_rulisp_") found with
      | error e => exact trivial
      | ok other =>
          simp only [hadmission, Except.toOption, Option.some.injEq] at hopened
          subst hopened
          exact Or.inl hname

end Rulisp
