import Rulisp.LoaderInvariant

/-!
# A load that returns

What a whole publication does to one symbol and to one entry of `*crates*`,
and from it the registry after a load that nothing refuses.
-/

namespace Rulisp

open TransitionSystem

/-! ## What a publication does to one symbol -/

theorem mem_publication_defineCondition {prepared : Prepared}
    {previous : List Symbol} {sym : Symbol} :
    .defineCondition sym ∈ publication prepared previous ↔
      sym ∈ prepared.ctx.errorConditions.map (·.2) := by
  simp [publication, List.mem_flatMap]

theorem mem_publication_defineClass {prepared : Prepared}
    {previous : List Symbol} {sym : Symbol} {doc : Message}
    (hop : .defineClass sym doc ∈ publication prepared previous) :
    sym ∈ prepared.classes.map (·.1) := by
  simp only [publication, List.mem_append, List.mem_flatMap, List.mem_cons,
    reduceCtorEq, List.not_mem_nil, or_false, false_or, and_false,
    exists_false, PublishOp.defineClass.injEq] at hop
  obtain ⟨⟨sym', doc'⟩, hclass, rfl, rfl⟩ := hop
  exact List.mem_map.mpr ⟨_, hclass, rfl⟩

namespace Registry

/-- A publication that the host does not refuse runs to its end. -/
theorem publishAll_eq_foldl {name package : String}
    {refusal : PublicationRefusal} {ops : List PublishOp}
    {registry next : Registry}
    (hpublish : publishAll name package refusal ops registry = (next, none)) :
    next = ops.foldl (fun registry op => registry.publish name package op)
      registry := by
  induction ops generalizing refusal registry with
  | nil =>
      cases hpublish
      rfl
  | cons op rest ih =>
      unfold publishAll at hpublish
      split at hpublish
      · exact ih hpublish
      · cases refusal with
        | none => exact ih hpublish
        | some refused =>
            obtain ⟨count, kind⟩ := refused
            cases count with
            | zero => cases hpublish
            | succ count => exact ih hpublish

theorem functions_publish_eq_or (registry : Registry) (name package : String)
    (op : PublishOp) (sym : Symbol) :
    (registry.publish name package op).functions sym =
        registry.functions sym ∨
      (∃ w, op = .setFunction sym w ∧
        (registry.publish name package op).functions sym =
          some (.wrapper w)) ∨
      op = .makeUnbound sym ∧
        (registry.publish name package op).functions sym = none := by
  cases op with
  | setFunction other w =>
      by_cases hsym : sym = other
      · subst hsym
        exact .inr (.inl ⟨w, rfl, by simp [publish]⟩)
      · exact .inl (by simp [publish, hsym])
  | makeUnbound other =>
      by_cases hsym : sym = other
      · subst hsym
        exact .inr (.inr ⟨rfl, by simp [publish]⟩)
      · exact .inl (by simp [publish, hsym])
  | setSymbols symbols =>
      left
      simp only [publish]
      split <;> rfl
  | _ => exact .inl rfl

theorem classes_publish_eq_or (registry : Registry) (name package : String)
    (op : PublishOp) (sym : Symbol) :
    (registry.publish name package op).classes sym = registry.classes sym ∨
      (op = .defineCondition sym ∧
        (registry.publish name package op).classes sym =
          some .conditionClass) ∨
      ∃ doc, op = .defineClass sym doc := by
  cases op with
  | defineCondition other =>
      by_cases hsym : sym = other
      · subst hsym
        exact .inr (.inl ⟨rfl, by simp [publish]⟩)
      · exact .inl (by simp [publish, hsym])
  | defineClass other doc =>
      by_cases hsym : sym = other
      · subst hsym
        exact .inr (.inr ⟨doc, rfl⟩)
      · exact .inl (by simp [publish, hsym])
  | setSymbols symbols =>
      left
      simp only [publish]
      split <;> rfl
  | _ => exact .inl rfl

/-- All of a publication. -/
def published (registry : Registry) (name package : String)
    (prepared : Prepared) (previous : List Symbol) : Registry :=
  (publication prepared previous).foldl
    (fun registry op => registry.publish name package op) registry

section Published

variable (registry : Registry) (name package : String) {prepared : Prepared}
  {previous : List Symbol} {sym : Symbol}

theorem functions_published_of_notMem
    (hnew : sym ∉ prepared.fns.map (·.1)) (hold : sym ∉ previous) :
    (registry.published name package prepared previous).functions sym =
      registry.functions sym := by
  refine foldl_view_eq (fun later : Registry => later.functions sym) ?_ registry
  intro op hop before
  rcases before.functions_publish_eq_or name package op sym with
    hsame | ⟨w, rfl, -⟩ | ⟨rfl, -⟩
  · exact hsame
  · obtain ⟨doc, hfn⟩ := mem_publication_setFunction hop
    exact absurd (List.mem_map.mpr ⟨_, hfn, rfl⟩) hnew
  · have hprevious : sym ∈ previous := by
      simp only [publication, List.mem_append, List.mem_flatMap,
        List.mem_cons, reduceCtorEq, List.not_mem_nil, or_false, false_or,
        and_false, exists_false, PublishOp.makeUnbound.injEq,
        List.mem_filter] at hop
      obtain ⟨other, hother, rfl⟩ := hop
      exact hother.1
    exact absurd hprevious hold

theorem functions_published_of_mem
    (hdistinct : (prepared.fns.map (·.1)).Nodup)
    {doc : Message} {w : CrateWrapper} (hfn : (sym, doc, w) ∈ prepared.fns) :
    (registry.published name package prepared previous).functions sym =
      some (.wrapper w) := by
  have hop : .setFunction sym w ∈ publication prepared previous := by
    simp only [publication, List.mem_append, List.mem_flatMap]
    exact .inl (.inl (.inr ⟨_, hfn, by simp⟩))
  refine foldl_view_set (fun later : Registry => later.functions sym) hop ?_ ?_
    registry
  · intro before
    simp [publish]
  · intro other hother before
    rcases before.functions_publish_eq_or name package other sym with
      hsame | ⟨w', rfl, hset⟩ | ⟨rfl, -⟩
    · exact .inl hsame
    · obtain ⟨doc', hfn'⟩ := mem_publication_setFunction hother
      have hentry := List.inj_on_of_nodup_map hdistinct hfn' hfn rfl
      simp only [Prod.mk.injEq, true_and] at hentry
      rw [hset, hentry.2]
      exact .inr rfl
    · have hunbound : sym ∉ prepared.fns.map (·.1) := by
        simp only [publication, List.mem_append, List.mem_flatMap,
          List.mem_cons, reduceCtorEq, List.not_mem_nil, or_false, false_or,
          and_false, exists_false, PublishOp.makeUnbound.injEq,
          List.mem_filter, decide_eq_true_eq] at hother
        obtain ⟨other, hnew, rfl⟩ := hother
        exact hnew.2
      exact absurd (List.mem_map.mpr ⟨_, hfn, rfl⟩) hunbound

theorem classes_published_of_notMem
    (hconditions : sym ∉ prepared.ctx.errorConditions.map (·.2))
    (hclasses : sym ∉ prepared.classes.map (·.1)) :
    (registry.published name package prepared previous).classes sym =
      registry.classes sym := by
  refine foldl_view_eq (fun later : Registry => later.classes sym) ?_ registry
  intro op hop before
  rcases before.classes_publish_eq_or name package op sym with
    hsame | ⟨rfl, -⟩ | ⟨doc, rfl⟩
  · exact hsame
  · exact absurd (mem_publication_defineCondition.mp hop) hconditions
  · exact absurd (mem_publication_defineClass hop) hclasses

theorem classes_published_of_condition
    (hconditions : sym ∈ prepared.ctx.errorConditions.map (·.2))
    (hclasses : sym ∉ prepared.classes.map (·.1)) :
    (registry.published name package prepared previous).classes sym =
      some .conditionClass := by
  have hop : .defineCondition sym ∈ publication prepared previous :=
    mem_publication_defineCondition.mpr hconditions
  refine foldl_view_set (fun later : Registry => later.classes sym) hop ?_ ?_
    registry
  · intro before
    simp [publish]
  · intro other hother before
    rcases before.classes_publish_eq_or name package other sym with
      hsame | ⟨rfl, hset⟩ | ⟨doc, rfl⟩
    · exact .inl hsame
    · exact .inr hset
    · exact absurd (mem_publication_defineClass hother) hclasses

theorem classOwner_published_of_mem
    (hclass : sym ∈ prepared.classes.map (·.1)) :
    (registry.published name package prepared previous).classOwner sym =
      some name := by
  have hop : .markClassOwner sym ∈ publication prepared previous :=
    mem_publication_markClassOwner.mpr hclass
  refine foldl_view_set (fun later : Registry => later.classOwner sym) hop ?_ ?_
    registry
  · intro before
    simp [classOwner_publish]
  · intro other _ before
    rw [classOwner_publish]
    by_cases hmarks : other = .markClassOwner sym
    · exact .inr (if_pos hmarks)
    · exact .inl (if_neg hmarks)

theorem classOwner_published_of_notMem
    (hclass : sym ∉ prepared.classes.map (·.1)) :
    (registry.published name package prepared previous).classOwner sym =
      registry.classOwner sym := by
  refine foldl_view_eq (fun later : Registry => later.classOwner sym) ?_ registry
  intro op hop before
  rw [classOwner_publish, if_neg]
  rintro rfl
  exact hclass (mem_publication_markClassOwner.mp hop)

theorem crates_published_of_ne {other : String} (hother : other ≠ name) :
    (registry.published name package prepared previous).crates other =
      registry.crates other := by
  refine foldl_view_eq (fun later : Registry => later.crates other) ?_ registry
  intro op _ before
  rcases before.crates_publish name package op other with
    hsame | ⟨symbols, crate, -, hname, -⟩
  · exact hsame
  · exact absurd hname hother

theorem crates_published_self {crate : Crate}
    (hcrate : registry.crates name = some crate) :
    (registry.published name package prepared previous).crates name =
      some { crate with symbols := prepared.fns.map (·.1) } := by
  unfold published publication
  rw [List.foldl_append]
  generalize hbefore : List.foldl _ registry _ = before
  have hentry : before.crates name = some crate := by
    rw [← hbefore, ← hcrate]
    refine foldl_view_eq (fun later : Registry => later.crates name) ?_
      registry
    intro op hop state
    rcases state.crates_publish name package op name with
      hsame | ⟨symbols, _, rfl, -, -⟩
    · exact hsame
    · simp [List.mem_flatMap] at hop
  simp [publish, hentry, setCrate]

end Published

end Registry

variable [LispCase]

/-! ## A successful load -/

namespace Registry

@[simp] theorem functions_register (registry : Registry) (name : String)
    (package : Option String) :
    (registry.register name package).functions = registry.functions := by
  unfold register
  split <;> rfl

@[simp] theorem classes_register (registry : Registry) (name : String)
    (package : Option String) :
    (registry.register name package).classes = registry.classes := by
  unfold register
  split <;> rfl

omit [LispCase] in
@[simp] theorem functions_setCrate (registry : Registry) (name : String)
    (crate : Crate) :
    (registry.setCrate name crate).functions = registry.functions := rfl

omit [LispCase] in
@[simp] theorem classes_setCrate (registry : Registry) (name : String)
    (crate : Crate) :
    (registry.setCrate name crate).classes = registry.classes := rfl

omit [LispCase] in
@[simp] theorem classOwner_setCrate (registry : Registry) (name : String)
    (crate : Crate) :
    (registry.setCrate name crate).classOwner = registry.classOwner := rfl

/-- The entry that a load finds or makes. -/
def entryFor (registry : Registry) (args : LoadArgs) (opened : Opened) :
    Crate :=
  registry.crateFor opened.manifest.crate args.package

/-- The registry after a load that nothing refuses. -/
def afterLoad (registry : Registry) (host : LoadHost) (library : Library)
    (args : LoadArgs) (opened : Opened) (prepared : Prepared) : Registry :=
  let before := registry.entryFor args opened
  ((registry.register opened.manifest.crate args.package).setCrate
    opened.manifest.crate
    (before.commitSlots host library opened prepared)).published
      opened.manifest.crate before.package prepared before.symbols

/-- A load that returns has committed and published everything. -/
theorem loadCrateLocked_eq_ok {registry next : Registry}
    {host : LoadHost} {refusal : PublicationRefusal} {library : Library}
    {args : LoadArgs} {name : String}
    (hload : registry.loadCrateLocked host refusal library args =
      (next, .ok name)) :
    ∃ opened prepared, admitLoad host args = .ok opened ∧
      prepareGeneration host library
        (registry.register opened.manifest.crate args.package)
        (registry.entryFor args opened) opened.image opened.manifest =
          .ok prepared ∧
      name = opened.manifest.crate ∧
      next = registry.afterLoad host library args opened prepared := by
  unfold loadCrateLocked at hload
  split at hload
  · cases hload
  · rename_i begun commit hbegin
    have hcommitted := beginLoad_eq_ok hbegin
    split at hload
    · cases hload
    · rename_i published hpublish
      have hfold := publishAll_eq_foldl hpublish
      split at hload
      · cases hload
      · cases hload
        cases hcommitted with
        | committed opened prepared hadmitted hprepare =>
            exact ⟨opened, prepared, hadmitted, hprepare, rfl, hfold⟩

section AfterLoad

variable {registry : Registry} {host : LoadHost} {library : Library}
  {args : LoadArgs} {opened : Opened} {prepared : Prepared} {sym : Symbol}

theorem functions_afterLoad_of_notMem
    (hnew : sym ∉ prepared.fns.map (·.1))
    (hold : sym ∉ (registry.entryFor args opened).symbols) :
    (registry.afterLoad host library args opened prepared).functions sym =
      registry.functions sym := by
  unfold afterLoad
  rw [functions_published_of_notMem _ _ _ hnew hold]
  simp

theorem classes_afterLoad_of_notMem
    (hconditions : sym ∉ prepared.ctx.errorConditions.map (·.2))
    (hclasses : sym ∉ prepared.classes.map (·.1)) :
    (registry.afterLoad host library args opened prepared).classes sym =
      registry.classes sym := by
  unfold afterLoad
  rw [classes_published_of_notMem _ _ _ hconditions hclasses]
  simp

theorem classOwner_afterLoad_of_notMem
    (hclass : sym ∉ prepared.classes.map (·.1)) :
    (registry.afterLoad host library args opened prepared).classOwner sym =
      registry.classOwner sym := by
  unfold afterLoad
  rw [classOwner_published_of_notMem _ _ _ hclass]
  simp

theorem crates_afterLoad_of_ne {other : String}
    (hother : other ≠ opened.manifest.crate) :
    (registry.afterLoad host library args opened prepared).crates other =
      registry.crates other := by
  unfold afterLoad
  rw [crates_published_of_ne _ _ _ hother, crates_setCrate, if_neg hother,
    crates_register_of_ne _ hother]

theorem crates_afterLoad_self :
    (registry.afterLoad host library args opened prepared).crates
        opened.manifest.crate =
      some
        { (registry.entryFor args opened).commitSlots host library opened
            prepared with
          symbols := prepared.fns.map (·.1) } := by
  unfold afterLoad
  rw [crates_published_self]
  rw [crates_setCrate, if_pos rfl]

end AfterLoad

end Registry

end Rulisp
