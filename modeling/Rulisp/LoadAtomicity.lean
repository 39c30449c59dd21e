import Rulisp.CrateRegistry

/-!
# Atomicity of loads

A load that signals is meant to leave no trace.  Whatever refuses a load
before the crate is entered in `*crates*` leaves none.  After that point the
entry of a new crate stays behind when preparation fails, and the committed
slots stay behind when the publication of the bindings is refused.
-/

namespace Rulisp

section Case

variable [LispCase]

/-- One of the operations left is the one that the host refuses. -/
def PublicationRefusal.hits (refusal : PublicationRefusal)
    (ops : List PublishOp) : Prop :=
  match refusal with
  | none => False
  | some (count, _) => count < (ops.filter (!·.internal)).length

/-- Nothing signals any more once the load has touched the registry: it is
refused before the crate is entered, or it is a reload that preparation
refuses, or neither publication nor the sweep is refused. -/
def LoadCall.SignalsBeforeMutation (call : LoadCall) (registry : Registry)
    (host : LoadHost) (refusal : PublicationRefusal) (library : Library) :
    Prop :=
  match call.args registry with
  | .error _ => True
  | .ok args =>
      match admitLoad host args with
      | .error _ => True
      | .ok opened =>
          let name := opened.manifest.crate
          let crate := registry.crateFor name args.package
          match prepareGeneration host library
            (registry.register name args.package) crate opened.image
            opened.manifest with
          | .error _ => (registry.crates name).isSome = true
          | .ok prepared =>
              ¬ refusal.hits (publication prepared crate.symbols) ∧
                host.sweepRefusal = none

/-! ## Registration and publication -/

theorem Registry.register_eq_self {registry : Registry} {name : String}
    (package : Option String)
    (hregistered : (registry.crates name).isSome = true) :
    registry.register name package = registry := by
  obtain ⟨crate, hcrate⟩ := Option.isSome_iff_exists.mp hregistered
  simp [Registry.register, hcrate]

theorem Registry.register_ne_self {registry : Registry} {name : String}
    (package : Option String) (hfresh : registry.crates name = none) :
    registry.register name package ≠ registry := by
  intro hsame
  have hentry := congrArg (fun r => r.crates name) hsame
  simp [Registry.register, Registry.setCrate, hfresh] at hentry

/-- The generation of a registered crate. -/
def Registry.generationOf (registry : Registry) (name : String) : Option ℕ :=
  (registry.crates name).map Crate.generation

omit [LispCase] in
@[simp] theorem Registry.generationOf_publish (registry : Registry)
    (name package : String) (op : PublishOp) (other : String) :
    (registry.publish name package op).generationOf other =
      registry.generationOf other := by
  cases op with
  | setSymbols symbols =>
      unfold Registry.publish Registry.generationOf
      cases hcrate : registry.crates name with
      | none => rfl
      | some crate =>
          by_cases hother : other = name
          · subst hother
            simp [Registry.setCrate, hcrate]
          · simp [Registry.setCrate, hother]
  | _ => rfl

omit [LispCase] in
theorem Registry.generationOf_publishAll (name package : String)
    (refusal : PublicationRefusal) (ops : List PublishOp)
    (registry : Registry) (other : String) :
    (publishAll name package refusal ops registry).1.generationOf other =
      registry.generationOf other := by
  induction ops generalizing refusal registry with
  | nil => rfl
  | cons op rest ih =>
      unfold publishAll
      split
      · rw [ih, generationOf_publish]
      · cases refusal with
        | none => rw [ih, generationOf_publish]
        | some refused =>
            obtain ⟨count, kind⟩ := refused
            cases count with
            | zero => rfl
            | succ count => rw [ih, generationOf_publish]

omit [LispCase] in
theorem Registry.publishAll_refused_iff (name package : String)
    (refusal : PublicationRefusal) (ops : List PublishOp)
    (registry : Registry) :
    (publishAll name package refusal ops registry).2 = none ↔
      ¬ refusal.hits ops := by
  induction ops generalizing refusal registry with
  | nil => cases refusal <;> simp [publishAll, PublicationRefusal.hits]
  | cons op rest ih =>
      unfold publishAll
      cases hinternal : op.internal with
      | true =>
          have hsame : refusal.hits (op :: rest) ↔ refusal.hits rest := by
            cases refusal <;> simp [PublicationRefusal.hits, hinternal]
          rw [if_pos rfl, ih, hsame]
      | false =>
          rw [if_neg Bool.false_ne_true]
          cases refusal with
          | none => simp [ih, PublicationRefusal.hits]
          | some refused =>
              obtain ⟨count, kind⟩ := refused
              cases count with
              | zero => simp [PublicationRefusal.hits, hinternal]
              | succ count => simp [ih, PublicationRefusal.hits, hinternal]

/-! ## The generation number of a commit -/

theorem prepareGeneration_generation {host : LoadHost} {library : Library}
    {registry : Registry} {crate : Crate} {image : LibraryImage}
    {manifest : Manifest} {prepared : Prepared}
    (hprepared : prepareGeneration host library registry crate image manifest =
      .ok prepared) :
    prepared.ctx.generation = crate.generation + 1 := by
  unfold prepareGeneration at hprepared
  simp only [LispResult.bind_eq_ok] at hprepared
  obtain ⟨_, _, _, _, _, _, _, _, _, _, _, _, _, _, hlast⟩ := hprepared
  cases hlast
  rfl

/-- A crate that is not registered yet has no generation, a registered one a
smaller one than the next. -/
theorem Registry.generationOf_lt_crateFor (registry : Registry)
    (name : String) (package : Option String) :
    registry.generationOf name ≠
      some ((registry.crateFor name package).generation + 1) := by
  unfold generationOf crateFor
  cases registry.crates name with
  | none => simp
  | some crate => simp

/-- Once the slots are set, no way back leads to the registry of before. -/
theorem Registry.ne_of_committed {registry next : Registry}
    {name : String} (package : Option String)
    (hnext : next.generationOf name =
      some ((registry.crateFor name package).generation + 1)) :
    next ≠ registry := by
  intro hsame
  subst hsame
  exact next.generationOf_lt_crateFor name package hnext

/-! ## Atomicity -/

theorem Registry.generationOf_beginLoad {registry begun : Registry}
    {host : LoadHost} {library : Library} {args : LoadArgs}
    {commit : Commit}
    (hbegin : registry.beginLoad host library args = (begun, .ok commit)) :
    begun.generationOf commit.generation.crate =
      some ((registry.crateFor commit.generation.crate
        args.package).generation + 1) := by
  unfold beginLoad at hbegin
  split at hbegin
  · cases hbegin
  · rename_i opened hopened
    simp only at hbegin
    split at hbegin
    · cases hbegin
    · rename_i prepared hprepared
      cases hbegin
      simp [generationOf, setCrate, Crate.commitSlots,
        prepareGeneration_generation hprepared]

/-- What a load that gets past registration has done when it signals. -/
theorem Registry.loadCrateLocked_of_begun {registry begun : Registry}
    {host : LoadHost} {refusal : PublicationRefusal} {library : Library}
    {args : LoadArgs} {commit : Commit}
    (hbegin : registry.beginLoad host library args = (begun, .ok commit)) :
    (∀ e, (registry.loadCrateLocked host refusal library args).2 = .error e →
      (registry.loadCrateLocked host refusal library args).1 = registry) ↔
    ¬ refusal.hits commit.ops ∧ host.sweepRefusal = none := by
  have hgeneration : ∀ refused,
      (publishAll commit.generation.crate commit.package refused commit.ops
        begun).1 ≠ registry := by
    intro refused
    apply ne_of_committed args.package
    rw [generationOf_publishAll]
    exact generationOf_beginLoad hbegin
  have hrefused := publishAll_refused_iff commit.generation.crate
    commit.package refusal commit.ops begun
  unfold loadCrateLocked
  simp only [hbegin]
  generalize hpublish : publishAll commit.generation.crate commit.package
    refusal commit.ops begun = published at hrefused
  have hne : published.1 ≠ registry := hpublish ▸ hgeneration refusal
  obtain ⟨published, refused⟩ := published
  cases refused with
  | some kind =>
      simp only [reduceCtorEq, false_iff, not_not] at hrefused
      refine iff_of_false (fun hkeeps => hne (hkeeps _ rfl)) ?_
      exact fun hquiet => hquiet.1 hrefused
  | none =>
      have hpublished := hrefused.mp rfl
      cases hsweep : host.sweepRefusal with
      | some kind =>
          refine iff_of_false (fun hkeeps => hne (hkeeps _ rfl)) ?_
          simp
      | none => exact iff_of_true (by simp) ⟨hpublished, rfl⟩

/-- A load leaves the registry as it was on every error it can signal if and
only if nothing signals once the registry has been touched. -/
theorem load_atomic_iff (call : LoadCall) (registry : Registry)
    (host : LoadHost) (refusal : PublicationRefusal) (library : Library) :
    (∀ e, (call.run registry host refusal library).2 = .error e →
      (call.run registry host refusal library).1 = registry) ↔
    call.SignalsBeforeMutation registry host refusal library := by
  unfold LoadCall.run LoadCall.SignalsBeforeMutation
  cases hargs : call.args registry with
  | error e => simp
  | ok args =>
      cases hadmitted : admitLoad host args with
      | error e =>
          simp [Registry.loadCrateLocked, Registry.beginLoad, hadmitted]
      | ok opened =>
          simp only [hadmitted]
          cases hprepare : prepareGeneration host library
            (registry.register opened.manifest.crate args.package)
            (registry.crateFor opened.manifest.crate args.package)
            opened.image opened.manifest with
          | error e =>
              have hbegin : registry.beginLoad host library args =
                  (registry.register opened.manifest.crate args.package,
                    .error e) := by
                simp [Registry.beginLoad, hadmitted, hprepare]
              simp only [Registry.loadCrateLocked, hbegin]
              cases hregistered : registry.crates opened.manifest.crate with
              | none =>
                  refine iff_of_false (fun hkeeps => ?_) (by simp)
                  exact Registry.register_ne_self _ hregistered
                    (hkeeps e rfl)
              | some crate =>
                  refine iff_of_true (fun _ _ => ?_) (by simp)
                  exact Registry.register_eq_self _ (by simp [hregistered])
          | ok prepared =>
              let crate := registry.crateFor opened.manifest.crate args.package
              let commit : Commit :=
                { generation :=
                    { crate := opened.manifest.crate
                      number := prepared.ctx.generation
                      library := library
                      manifest := opened.manifest }
                  package := crate.package
                  ops := publication prepared crate.symbols }
              let begun := (registry.register opened.manifest.crate
                args.package).setCrate opened.manifest.crate
                  (crate.commitSlots host library opened prepared)
              have hbegin : registry.beginLoad host library args =
                  (begun, .ok commit) := by
                simp only [Registry.beginLoad, hadmitted, hprepare, begun, commit,
                  crate]
              exact Registry.loadCrateLocked_of_begun hbegin

end Case

/-! ## Two loads that leave a trace -/

attribute [local instance] standardCase

/-- The registry after a first load of the demo crate that succeeds. -/
def demoLoaded : Registry :=
  (demoLoad.run .empty (demoHost demoExports) none
    { serial := 1, session := 0 }).1

/-- A first load of an artifact without the free shim. -/
def demoFirstLoad : Registry × LispResult String :=
  demoLoad.run .empty (demoHost (demoExports.erase "demo_rulisp_free_bag")) none
    { serial := 1, session := 0 }

/-- A reload whose class definition the host refuses. -/
def demoReload : Registry × LispResult String :=
  demoLoad.run demoLoaded (demoHost demoExports)
    (some (0, .other)) { serial := 2, session := 0 }

/-- The first load stays registered, the reload stays committed. -/
theorem load_not_atomic :
    (demoFirstLoad.2.isOk = false ∧
      demoFirstLoad.1.crateLoadOrder = ["demo"] ∧
      demoFirstLoad.1 ≠ .empty) ∧
    (demoReload.2.isOk = false ∧ demoReload.1.generationOf "demo" = some 2 ∧
      demoReload.1 ≠ demoLoaded) := by
  have hentered : demoFirstLoad.1.crateLoadOrder = ["demo"] := by decide
  have hcommitted : demoReload.1.generationOf "demo" = some 2 := by decide
  refine ⟨⟨by decide, hentered, ?_⟩, ⟨by decide, hcommitted, ?_⟩⟩
  · intro hsame
    rw [hsame] at hentered
    exact absurd hentered (by decide)
  · intro hsame
    rw [hsame] at hcommitted
    exact absurd hcommitted (by decide)

end Rulisp
