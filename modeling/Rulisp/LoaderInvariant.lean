import Rulisp.LoaderOutcome

/-!
# Generations and class owners over a run

A generation number of a crate is used once, and a class belongs to one
crate for good: the ownership check of preparation and the marks of
publication are under one hold of the lock.  So a published wrapper comes
from one generation, and the classes in its gates are its own crate's.
-/

namespace Rulisp

variable [LispCase]

/-! ## Registry operations -/

namespace Registry

def NamesMatch (registry : Registry) : Prop :=
  ∀ name crate, registry.crates name = some crate → crate.name = name

/-- No entry is lost and no generation number goes down. -/
def Grows (registry next : Registry) : Prop :=
  ∀ name crate, registry.crates name = some crate →
    ∃ later, next.crates name = some later ∧
      crate.generation ≤ later.generation

omit [LispCase] in
theorem Grows.refl (registry : Registry) : registry.Grows registry :=
  fun _ crate hcrate => ⟨crate, hcrate, le_rfl⟩

omit [LispCase] in
theorem Grows.trans {first second third : Registry}
    (hfirst : first.Grows second) (hsecond : second.Grows third) :
    first.Grows third := by
  intro name crate hcrate
  obtain ⟨later, hlater, hle⟩ := hfirst name crate hcrate
  obtain ⟨last, hlast, hle'⟩ := hsecond name later hlater
  exact ⟨last, hlast, hle.trans hle'⟩

omit [LispCase] in
theorem crates_setCrate (registry : Registry) (name : String) (crate : Crate)
    (other : String) :
    (registry.setCrate name crate).crates other =
      if other = name then some crate else registry.crates other := by
  simp [setCrate, Function.update_apply]

theorem crates_register_self (registry : Registry) (name : String)
    (package : Option String) :
    (registry.register name package).crates name =
      some (registry.crateFor name package) := by
  unfold register
  cases hcrate : registry.crates name with
  | none => simp [setCrate]
  | some crate => simp [crateFor, hcrate]

theorem crates_register_of_ne {registry : Registry} {name other : String}
    (package : Option String) (hother : other ≠ name) :
    (registry.register name package).crates other = registry.crates other := by
  unfold register
  cases hcrate : registry.crates name with
  | none => simp [setCrate, hother]
  | some crate => rfl

theorem crateFor_cases (registry : Registry) (name : String)
    (package : Option String) :
    registry.crates name = some (registry.crateFor name package) ∨
      registry.crates name = none ∧
        registry.crateFor name package =
          makeCrate name (package.getD (stringUpcase name)) := by
  unfold crateFor
  cases registry.crates name with
  | none => exact .inr ⟨rfl, rfl⟩
  | some crate => exact .inl rfl

@[simp] theorem classOwner_register (registry : Registry) (name : String)
    (package : Option String) :
    (registry.register name package).classOwner = registry.classOwner := by
  unfold register
  split <;> rfl

omit [LispCase] in
@[simp] theorem classOwner_stubCrate (registry : Registry) (name : String)
    (e : LoadCondition) :
    (registry.stubCrate name e).classOwner = registry.classOwner := by
  unfold stubCrate
  split <;> rfl

omit [LispCase] in
theorem crates_stubCrate (registry : Registry) (name : String)
    (e : LoadCondition) (other : String) :
    (registry.stubCrate name e).crates other =
      if other = name then (registry.crates name).map (·.stubSlots e)
      else registry.crates other := by
  unfold stubCrate
  cases hcrate : registry.crates name with
  | none =>
      by_cases hother : other = name
      · simp [hother, hcrate]
      · simp [hother]
  | some crate =>
      by_cases hother : other = name
      · simp [hother, setCrate]
      · simp [hother, setCrate]

omit [LispCase] in
/-- Publication changes at most the symbols of the crate's entry. -/
theorem crates_publish (registry : Registry) (name package : String)
    (op : PublishOp) (other : String) :
    (registry.publish name package op).crates other = registry.crates other ∨
      ∃ symbols crate, op = .setSymbols symbols ∧ other = name ∧
        registry.crates name = some crate ∧
        (registry.publish name package op).crates other =
          some { crate with symbols := symbols } := by
  cases op with
  | setSymbols symbols =>
      unfold publish
      cases hcrate : registry.crates name with
      | none => exact .inl (by simp)
      | some crate =>
          by_cases hother : other = name
          · subst hother
            exact .inr ⟨symbols, crate, rfl, rfl, rfl, by simp [setCrate]⟩
          · exact .inl (by simp [setCrate, hother])
  | _ => exact .inl rfl

omit [LispCase] in
theorem crates_publish_cases {registry : Registry} {name package : String}
    {op : PublishOp} {other : String} {crate : Crate}
    (hcrate : (registry.publish name package op).crates other = some crate) :
    ∃ before, registry.crates other = some before ∧
      (crate = before ∨ ∃ symbols, op = .setSymbols symbols ∧ other = name ∧
        crate = { before with symbols := symbols }) := by
  rcases registry.crates_publish name package op other with
    hsame | ⟨symbols, before, hop, hother, hbefore, hnext⟩
  · exact ⟨crate, hsame ▸ hcrate, .inl rfl⟩
  · subst hother
    rw [hnext] at hcrate
    cases hcrate
    exact ⟨before, hbefore, .inr ⟨symbols, hop, rfl, rfl⟩⟩

theorem NamesMatch.crateFor {registry : Registry}
    (hnames : registry.NamesMatch) (name : String)
    (package : Option String) :
    (registry.crateFor name package).name = name := by
  rcases registry.crateFor_cases name package with hcrate | ⟨-, hfresh⟩
  · exact hnames name _ hcrate
  · rw [hfresh]
    rfl

omit [LispCase] in
theorem NamesMatch.setCrate {registry : Registry}
    (hnames : registry.NamesMatch) {name : String} {crate : Crate}
    (hname : crate.name = name) : (registry.setCrate name crate).NamesMatch := by
  intro other found hfound
  rw [crates_setCrate] at hfound
  split at hfound
  · rename_i hother
    cases hfound
    rw [hname, hother]
  · exact hnames other found hfound

theorem NamesMatch.register {registry : Registry}
    (hnames : registry.NamesMatch) (name : String)
    (package : Option String) : (registry.register name package).NamesMatch := by
  intro other crate hcrate
  by_cases hother : other = name
  · subst hother
    rw [crates_register_self] at hcrate
    cases hcrate
    exact hnames.crateFor other package
  · rw [crates_register_of_ne package hother] at hcrate
    exact hnames other crate hcrate

omit [LispCase] in
theorem NamesMatch.publish {registry : Registry}
    (hnames : registry.NamesMatch) (name package : String) (op : PublishOp) :
    (registry.publish name package op).NamesMatch := by
  intro other crate hcrate
  obtain ⟨before, hbefore, rfl | ⟨symbols, -, -, rfl⟩⟩ :=
    crates_publish_cases hcrate
  · exact hnames other _ hbefore
  · exact hnames other before hbefore

omit [LispCase] in
theorem NamesMatch.stubCrate {registry : Registry}
    (hnames : registry.NamesMatch) (name : String) (e : LoadCondition) :
    (registry.stubCrate name e).NamesMatch := by
  intro other crate hcrate
  rw [crates_stubCrate] at hcrate
  split at hcrate
  · rename_i hother
    obtain ⟨before, hbefore, rfl⟩ := Option.map_eq_some_iff.mp hcrate
    subst hother
    exact hnames other before hbefore
  · exact hnames other crate hcrate

theorem NamesMatch.afterRefusal {registry next : Registry}
    (hnames : registry.NamesMatch) (hnext : registry.AfterRefusal next) :
    next.NamesMatch := by
  rcases hnext with rfl | ⟨name, package, rfl⟩
  · exact hnames
  · exact hnames.register name package

theorem Grows.register (registry : Registry) (name : String)
    (package : Option String) :
    registry.Grows (registry.register name package) := by
  intro other crate hcrate
  by_cases hother : other = name
  · subst hother
    refine ⟨_, registry.crates_register_self other package, ?_⟩
    simp [Registry.crateFor, hcrate]
  · exact ⟨crate, (crates_register_of_ne package hother).trans hcrate, le_rfl⟩

theorem Grows.afterRefusal {registry next : Registry}
    (hnext : registry.AfterRefusal next) : registry.Grows next := by
  rcases hnext with rfl | ⟨name, package, rfl⟩
  · exact .refl next
  · exact .register registry name package

omit [LispCase] in
theorem Grows.publish (registry : Registry) (name package : String)
    (op : PublishOp) : registry.Grows (registry.publish name package op) := by
  intro other crate hcrate
  rcases registry.crates_publish name package op other with
    hsame | ⟨symbols, before, -, rfl, hbefore, hnext⟩
  · exact ⟨crate, hsame.trans hcrate, le_rfl⟩
  · cases hcrate.symm.trans hbefore
    exact ⟨_, hnext, le_rfl⟩

omit [LispCase] in
theorem Grows.stubCrate (registry : Registry) (name : String)
    (e : LoadCondition) : registry.Grows (registry.stubCrate name e) := by
  intro other crate hcrate
  by_cases hother : other = name
  · subst hother
    refine ⟨crate.stubSlots e, ?_, le_rfl⟩
    simp [crates_stubCrate, hcrate]
  · exact ⟨crate, by simp [crates_stubCrate, hother, hcrate], le_rfl⟩

omit [LispCase] in
theorem classOwner_publish (registry : Registry) (name package : String)
    (op : PublishOp) (cls : Symbol) :
    (registry.publish name package op).classOwner cls =
      if op = .markClassOwner cls then some name
      else registry.classOwner cls := by
  cases op with
  | markClassOwner marked =>
      by_cases hmarked : cls = marked
      · simp [publish, hmarked]
      · simp [publish, hmarked, Ne.symm hmarked]
  | setSymbols symbols =>
      simp only [publish]
      split <;> simp [setCrate]
  | _ => simp [publish]

/-- A commit advances the crate to the generation it records. -/
theorem Committed.generation_eq {registry next : Registry} {host : LoadHost}
    {library : Library} {args : LoadArgs} {commit : Commit}
    (hcommitted : registry.Committed host library args next commit) :
    commit.generation.library = library ∧
      commit.generation.number =
        (registry.crateFor commit.generation.crate args.package).generation + 1 ∧
      ∃ crate, next.crates commit.generation.crate = some crate ∧
        crate.generation = commit.generation.number := by
  cases hcommitted with
  | committed opened prepared hadmitted hprepare =>
      have hsound := prepareGeneration_sound hprepare
      refine ⟨rfl, hsound.number, ?_⟩
      refine ⟨_, by simp [crates_setCrate]; rfl, rfl⟩

theorem Committed.grows {registry next : Registry} {host : LoadHost}
    {library : Library} {args : LoadArgs} {commit : Commit}
    (hcommitted : registry.Committed host library args next commit) :
    registry.Grows next := by
  cases hcommitted with
  | committed opened prepared hadmitted hprepare =>
      have hnumber := (prepareGeneration_sound hprepare).number
      apply (Grows.register registry opened.manifest.crate args.package).trans
      intro other crate hcrate
      by_cases hother : other = opened.manifest.crate
      · subst hother
        rw [crates_register_self] at hcrate
        cases hcrate
        refine ⟨_, by rw [crates_setCrate, if_pos rfl], ?_⟩
        simp [Crate.commitSlots, hnumber]
      · exact ⟨crate, by simp [crates_setCrate, hother, hcrate], le_rfl⟩

theorem Committed.namesMatch {registry next : Registry} {host : LoadHost}
    {library : Library} {args : LoadArgs} {commit : Commit}
    (hnames : registry.NamesMatch)
    (hcommitted : registry.Committed host library args next commit) :
    next.NamesMatch := by
  cases hcommitted with
  | committed opened prepared hadmitted hprepare =>
      apply (hnames.register _ _).setCrate
      exact hnames.crateFor _ _

end Registry

/-! ## The invariant -/

/-- Every class in the wrapper's gates belongs to `crate`. -/
def CrateWrapper.OwnedBy (w : CrateWrapper) (crate : String)
    (classOwner : Symbol → Option String) : Prop :=
  ∀ token cls, w.MentionsHandle token cls → classOwner cls = some crate

/-- The operations a publication has left: its wrappers come from the
generation being published, and when one of them becomes visible its classes
are marked. -/
structure Loading.Sound (loading : Loading)
    (classOwner : Symbol → Option String) : Prop where
  wrappers : ∀ sym w, .setFunction sym w ∈ loading.ops →
    w.BornOf loading.generation
  owned : ∀ before sym w after,
    loading.ops = before ++ .setFunction sym w :: after →
      ∀ token cls, w.MentionsHandle token cls →
        classOwner cls = some loading.generation.crate ∨
          .markClassOwner cls ∈ before
  marks : ∀ cls, .markClassOwner cls ∈ loading.ops →
    classOwner cls = none ∨ classOwner cls = some loading.generation.crate

structure LoaderState.Invariant (state : LoaderState) : Prop where
  names : state.registry.NamesMatch
  numbered : ∀ g ∈ state.generations, ∃ crate,
    state.registry.crates g.crate = some crate ∧ g.number ≤ crate.generation
  unique : ∀ g ∈ state.generations, ∀ g' ∈ state.generations,
    g.crate = g'.crate → g.number = g'.number → g = g'
  sessions : ∀ g ∈ state.generations, g.library.session ≤ state.session
  published : ∀ w ∈ state.published, ∃ g ∈ state.generations,
    w.BornOf g ∧ w.OwnedBy g.crate state.registry.classOwner
  loading : ∀ loading, state.lock = .loading loading →
    loading.generation ∈ state.generations ∧
      loading.generation.library.session = state.session ∧
      loading.Sound state.registry.classOwner

omit [LispCase] in
theorem mem_publication_setFunction {prepared : Prepared}
    {previous : List Symbol} {sym : Symbol} {w : CrateWrapper}
    (hmem : .setFunction sym w ∈ publication prepared previous) :
    ∃ doc, (sym, doc, w) ∈ prepared.fns := by
  simp only [publication, List.mem_append, List.mem_flatMap, List.mem_cons,
    reduceCtorEq, List.not_mem_nil, or_false, false_or, and_false,
    exists_false, PublishOp.setFunction.injEq] at hmem
  obtain ⟨⟨sym', doc, w'⟩, hfn, rfl, rfl⟩ := hmem
  exact ⟨doc, hfn⟩

omit [LispCase] in
theorem mem_publication_markClassOwner {prepared : Prepared}
    {previous : List Symbol} {cls : Symbol} :
    .markClassOwner cls ∈ publication prepared previous ↔
      cls ∈ prepared.classes.map (·.1) := by
  simp [publication, List.mem_flatMap]

omit [LispCase] in
/-- Marks come before functions. -/
theorem publication_marks_first {prepared : Prepared}
    {previous : List Symbol} {before after : List PublishOp} {sym : Symbol}
    {w : CrateWrapper} {cls : Symbol}
    (hsplit : publication prepared previous =
      before ++ .setFunction sym w :: after)
    (hcls : cls ∈ prepared.classes.map (·.1)) :
    .markClassOwner cls ∈ before := by
  unfold publication at hsplit
  simp only [List.append_assoc] at hsplit
  rw [← List.append_assoc] at hsplit
  generalize hclasses : prepared.ctx.errorConditions.flatMap _ ++
    prepared.classes.flatMap _ = classOps at hsplit
  have hmark : .markClassOwner cls ∈ classOps := by
    rw [← hclasses]
    simpa [List.mem_flatMap] using hcls
  have hnone : ∀ sym w, .setFunction sym w ∉ classOps := by
    rw [← hclasses]
    simp [List.mem_flatMap]
  rcases List.append_eq_append_iff.mp hsplit with
    ⟨middle, hbefore, -⟩ | ⟨middle, hclassOps, hrest⟩
  · rw [hbefore]
    exact List.mem_append_left _ hmark
  · cases middle with
    | nil => simpa [hclassOps] using hmark
    | cons op middle =>
        simp only [List.cons_append, List.cons.injEq] at hrest
        exact absurd (by simp [hclassOps, ← hrest.1]) (hnone sym w)

/-! ## Preservation -/

theorem Loading.Sound.tail {loading : Loading}
    {classOwner : Symbol → Option String} {op : PublishOp}
    {rest : List PublishOp} (hsound : loading.Sound classOwner)
    (hops : loading.ops = op :: rest) :
    Loading.Sound { loading with ops := rest } (fun cls =>
      if op = .markClassOwner cls then some loading.generation.crate
      else classOwner cls) := by
  constructor
  · intro sym w hmem
    exact hsound.wrappers sym w (by simp [hops, hmem])
  · intro before sym w after hsplit token cls hmentions
    simp only at hsplit ⊢
    rcases hsound.owned (op :: before) sym w after (by simp [hops, hsplit])
      token cls hmentions with howner | hmark
    · left
      split
      · rfl
      · exact howner
    · rcases List.mem_cons.mp hmark with hhead | hbefore
      · left
        simp [hhead]
      · exact .inr hbefore
  · intro cls hmem
    simp only at hmem ⊢
    split
    · exact .inr rfl
    · exact hsound.marks cls (by simp [hops, hmem])

/-- A mark that publication sets never takes a class from its owner. -/
theorem Loading.Sound.owner_kept {loading : Loading}
    {classOwner : Symbol → Option String} {op : PublishOp}
    {rest : List PublishOp} (hsound : loading.Sound classOwner)
    (hops : loading.ops = op :: rest) {cls : Symbol} {owner : String}
    (howner : classOwner cls = some owner) :
    (if op = .markClassOwner cls then some loading.generation.crate
      else classOwner cls) = some owner := by
  split
  · rename_i hmark
    rcases hsound.marks cls (by simp [hops, hmark]) with hnone | hsome
    · rw [hnone] at howner
      cases howner
    · rw [← hsome, howner]
  · exact howner

theorem Registry.Committed.classOwner_eq {registry next : Registry}
    {host : LoadHost} {library : Library} {args : LoadArgs} {commit : Commit}
    (hcommitted : registry.Committed host library args next commit) :
    next.classOwner = registry.classOwner := by
  cases hcommitted with
  | committed opened prepared hadmitted hprepare =>
      exact Registry.classOwner_register _ _ _

/-- The publication of a commit, before its first operation. -/
theorem Registry.Committed.loadingSound {registry next : Registry}
    {host : LoadHost} {library : Library} {args : LoadArgs} {commit : Commit}
    (hnames : registry.NamesMatch)
    (hcommitted : registry.Committed host library args next commit)
    (sweepRefusal : Option HostError)
    (restore : Option (String × List String)) :
    Loading.Sound
      { generation := commit.generation
        package := commit.package
        ops := commit.ops
        sweepRefusal := sweepRefusal
        restore := restore } next.classOwner := by
  rw [hcommitted.classOwner_eq]
  cases hcommitted with
  | committed opened prepared hadmitted hprepare =>
      have hsound := prepareGeneration_sound hprepare
      have hnumber : prepared.ctx.generation =
          (registry.crateFor opened.manifest.crate args.package).generation + 1 :=
        hsound.number
      rw [hnames.crateFor, ← hnumber] at hsound
      constructor
      · intro sym w hmem
        obtain ⟨doc, hfn⟩ := mem_publication_setFunction hmem
        exact hsound.wrappers sym doc w hfn
      · intro before sym w after hsplit token cls hmentions
        have hmem : .setFunction sym w ∈ before ++ .setFunction sym w :: after :=
          List.mem_append_right _ List.mem_cons_self
        rw [← hsplit] at hmem
        obtain ⟨doc, hfn⟩ := mem_publication_setFunction hmem
        exact .inr (publication_marks_first hsplit
          (hsound.classes sym doc w hfn token cls hmentions))
      · intro cls hmem
        have howner := hsound.owners cls (mem_publication_markClassOwner.mp hmem)
        rwa [Registry.classOwner_register] at howner

namespace LoaderState.Invariant

variable {state : LoaderState}

/-- Steps that change neither marks nor generations. -/
theorem afterRegistry (hinv : state.Invariant) (counter : ℕ)
    {registry : Registry} {lock : RegistryLock}
    (hnames : registry.NamesMatch) (hgrows : state.registry.Grows registry)
    (howner : registry.classOwner = state.registry.classOwner)
    (hlock : ∀ loading, lock ≠ .loading loading) :
    Invariant
      { state with copyCounter := counter, registry := registry, lock := lock } := by
  constructor
  · exact hnames
  · intro g hg
    obtain ⟨crate, hcrate, hle⟩ := hinv.numbered g hg
    obtain ⟨later, hlater, hle'⟩ := hgrows g.crate crate hcrate
    exact ⟨later, hlater, hle.trans hle'⟩
  · exact hinv.unique
  · exact hinv.sessions
  · intro w hw
    rw [howner]
    exact hinv.published w hw
  · exact fun loading hloading => absurd hloading (hlock loading)

theorem afterUnlock (hinv : state.Invariant) {lock : RegistryLock}
    (hlock : ∀ loading, lock ≠ .loading loading) :
    Invariant { state with lock := lock } :=
  hinv.afterRegistry state.copyCounter hinv.names (.refl _) rfl hlock

theorem afterImageStart (hinv : state.Invariant) (order : List String) :
    Invariant
      { state with session := state.session + 1, lock := .restoring order } where
  names := hinv.names
  numbered := hinv.numbered
  unique := hinv.unique
  sessions := fun g hg => Nat.le_succ_of_le (hinv.sessions g hg)
  published := hinv.published
  loading := fun _ hloading => by cases hloading

/-- The generation of a commit has a number of its own. -/
theorem afterBegin (hinv : state.Invariant) {host : LoadHost}
    {args : LoadArgs} {registry : Registry} {commit : Commit}
    (counter : ℕ) (restore : Option (String × List String))
    (hcommitted : state.registry.Committed host state.nextLibrary args registry
      commit) :
    Invariant
      { state with
        copyCounter := counter
        registry := registry
        lock := .loading
          { generation := commit.generation
            package := commit.package
            ops := commit.ops
            sweepRefusal := host.sweepRefusal
            restore := restore }
        generations := state.generations ++ [commit.generation] } := by
  obtain ⟨hlibrary, hnumber, crate, hcrate, hcurrent⟩ :=
    hcommitted.generation_eq
  have hfresh : ∀ g ∈ state.generations,
      g.crate = commit.generation.crate →
        g.number < commit.generation.number := by
    intro g hg hsame
    obtain ⟨registered, hregistered, hle⟩ := hinv.numbered g hg
    rw [hsame] at hregistered
    simp only [Registry.crateFor, hregistered, Option.getD_some] at hnumber
    omega
  constructor
  · exact hcommitted.namesMatch hinv.names
  · intro g hg
    rcases List.mem_append.mp hg with hold | hnew
    · obtain ⟨registered, hregistered, hle⟩ := hinv.numbered g hold
      obtain ⟨later, hlater, hle'⟩ :=
        hcommitted.grows g.crate registered hregistered
      exact ⟨later, hlater, hle.trans hle'⟩
    · rw [List.mem_singleton.mp hnew]
      exact ⟨crate, hcrate, hcurrent.ge⟩
  · intro g hg g' hg' hsame hnumbers
    rcases List.mem_append.mp hg with hold | hnew <;>
      rcases List.mem_append.mp hg' with hold' | hnew'
    · exact hinv.unique g hold g' hold' hsame hnumbers
    · rw [List.mem_singleton.mp hnew'] at hsame hnumbers
      exact absurd hnumbers (hfresh g hold hsame).ne
    · rw [List.mem_singleton.mp hnew] at hsame hnumbers
      exact absurd hnumbers.symm (hfresh g' hold' hsame.symm).ne
    · rw [List.mem_singleton.mp hnew, List.mem_singleton.mp hnew']
  · intro g hg
    rcases List.mem_append.mp hg with hold | hnew
    · exact hinv.sessions g hold
    · rw [List.mem_singleton.mp hnew, hlibrary]
      exact le_rfl
  · intro w hw
    obtain ⟨g, hg, hborn, howned⟩ := hinv.published w hw
    rw [← hcommitted.classOwner_eq] at howned
    exact ⟨g, List.mem_append_left _ hg, hborn, howned⟩
  · intro loading hloading
    cases hloading
    refine ⟨by simp, ?_, hcommitted.loadingSound hinv.names _ _⟩
    simp [hlibrary, nextLibrary]

theorem afterPublish (hinv : state.Invariant) {loading : Loading}
    {op : PublishOp} {rest : List PublishOp}
    (hlock : state.lock = .loading loading)
    (hops : loading.ops = op :: rest) :
    Invariant
      { state with
        registry := state.registry.publish loading.generation.crate
          loading.package op
        lock := .loading { loading with ops := rest }
        published := state.published ++ op.published } := by
  obtain ⟨hmem, hsession, hsound⟩ := hinv.loading loading hlock
  have howners := funext fun cls => state.registry.classOwner_publish
    loading.generation.crate loading.package op cls
  constructor
  · exact hinv.names.publish _ _ op
  · intro g hg
    obtain ⟨crate, hcrate, hle⟩ := hinv.numbered g hg
    obtain ⟨later, hlater, hle'⟩ := Registry.Grows.publish state.registry
      loading.generation.crate loading.package op g.crate crate hcrate
    exact ⟨later, hlater, hle.trans hle'⟩
  · exact hinv.unique
  · exact hinv.sessions
  · intro w hw
    rcases List.mem_append.mp hw with hold | hnew
    · obtain ⟨g, hg, hborn, howned⟩ := hinv.published w hold
      refine ⟨g, hg, hborn, fun token cls hmentions => ?_⟩
      rw [Registry.classOwner_publish]
      exact hsound.owner_kept hops (howned token cls hmentions)
    · cases op with
      | setFunction sym fn =>
          rw [List.mem_singleton.mp hnew]
          refine ⟨loading.generation, hmem,
            hsound.wrappers sym fn (by simp [hops]), ?_⟩
          intro token cls hmentions
          rcases hsound.owned [] sym fn rest (by simp [hops]) token cls
            hmentions with howner | hbefore
          · exact howner
          · cases hbefore
      | _ => cases hnew
  · intro next hnext
    cases hnext
    refine ⟨hmem, hsession, ?_⟩
    rw [howners]
    exact hsound.tail hops

theorem afterOutcome (hinv : state.Invariant) {action : LoaderAction}
    {next : LoaderState} (houtcome : state.Outcome action next) :
    next.Invariant := by
  cases houtcome with
  | unresolved call host => exact hinv
  | refused call host counter registry hlock hregistry =>
      apply hinv.afterRegistry counter (hinv.names.afterRefusal hregistry)
        (.afterRefusal hregistry)
      · rcases hregistry with rfl | ⟨name, package, rfl⟩
        · rfl
        · exact Registry.classOwner_register _ _ _
      · simp [hlock]
  | entryRefused name remaining host counter registry e hlock hregistry =>
      apply hinv.afterRegistry counter
        ((hinv.names.afterRefusal hregistry).stubCrate name e)
        ((Registry.Grows.afterRefusal hregistry).trans (.stubCrate _ _ _))
      · rw [Registry.classOwner_stubCrate]
        rcases hregistry with rfl | ⟨name, package, rfl⟩
        · rfl
        · exact Registry.classOwner_register _ _ _
      · simp
  | begun action host args restore counter registry commit hbegins hcommitted =>
      exact hinv.afterBegin counter restore hcommitted
  | published loading op rest hlock hops => exact hinv.afterPublish hlock hops
  | ended action loading hlock hrestore => exact hinv.afterUnlock (by simp)
  | entryEnded action loading name remaining hlock hrestore hops =>
      exact hinv.afterUnlock (by simp)
  | entryFailed action loading name remaining e hlock hrestore =>
      exact hinv.afterRegistry state.copyCounter (hinv.names.stubCrate name e)
        (.stubCrate _ _ _) (Registry.classOwner_stubCrate _ _ _) (by simp)
  | imageStarted order hlock horder => exact hinv.afterImageStart order
  | restored hlock => exact hinv.afterUnlock (by simp)

end LoaderState.Invariant

namespace LoaderState.Outcome

variable {state next : LoaderState} {action : LoaderAction}

theorem generations_kept (houtcome : state.Outcome action next) :
    ∀ g ∈ state.generations, g ∈ next.generations := by
  intro g hg
  cases houtcome with
  | begun => exact List.mem_append_left _ hg
  | _ => exact hg

theorem published_kept (houtcome : state.Outcome action next) :
    ∀ w ∈ state.published, w ∈ next.published := by
  intro w hw
  cases houtcome with
  | published => exact List.mem_append_left _ hw
  | _ => exact hw

theorem owners_kept (hinv : state.Invariant)
    (houtcome : state.Outcome action next) {cls : Symbol} {owner : String}
    (howner : state.registry.classOwner cls = some owner) :
    next.registry.classOwner cls = some owner := by
  have hrefusal : ∀ {registry : Registry},
      state.registry.AfterRefusal registry →
        registry.classOwner cls = some owner := by
    rintro registry (rfl | ⟨name, package, rfl⟩)
    · exact howner
    · rwa [Registry.classOwner_register]
  cases houtcome with
  | refused call host counter registry hlock hregistry =>
      exact hrefusal hregistry
  | entryRefused name remaining host counter registry e hlock hregistry =>
      simp only [Registry.classOwner_stubCrate]
      exact hrefusal hregistry
  | begun action host args restore counter registry commit hbegins hcommitted =>
      simp only [hcommitted.classOwner_eq]
      exact howner
  | published loading op rest hlock hops =>
      obtain ⟨-, -, hsound⟩ := hinv.loading loading hlock
      simp only [Registry.classOwner_publish]
      exact hsound.owner_kept hops howner
  | entryFailed action loading name remaining e hlock hrestore =>
      simp only [Registry.classOwner_stubCrate]
      exact howner
  | _ => exact howner

end LoaderState.Outcome

end Rulisp
