import Rulisp.LispImage
import Rulisp.LoaderInvariant

/-!
# Provenance of handle pointers

What an export receives in its handle positions, over any run of loads,
reloads, restores, calls through current or captured wrappers, and frees.
Every handle was made by one generation, and its class belongs to that
generation's crate.  The class gate fixes the crate, `cell-begin-call` the
generation number, and the two together the manifest, in which the class
name leaves one Rust type.
-/

namespace Rulisp

open TransitionSystem

section Case

variable [LispCase]

/-! ## The assumption on manifests -/

/-- Pairwise distinct Rust names, and Lisp names distinct ignoring case. -/
structure Manifest.HandlesDistinct (manifest : Manifest) : Prop where
  rustNames : (manifest.handles.map HandleSpec.rustName).Nodup
  lispNames :
    (manifest.handles.map fun h => stringUpcase h.lispName).Nodup

def LoadHost.HandlesDistinct (host : LoadHost) : Prop :=
  ∀ image manifest, host.dlopen = .ok image →
    (image.form >>= parseManifest) = .ok manifest → manifest.HandlesDistinct

/-- The artifact of a load, if the step is one, has distinct handle types. -/
def LoaderAction.HandlesDistinct : LoaderAction → Prop
  | .load _ host => host.HandlesDistinct
  | .restoreCrate _ host => host.HandlesDistinct
  | _ => True

def ImageAction.HandlesDistinct {n : ℕ} : ImageAction n → Prop
  | .loader action => action.HandlesDistinct
  | _ => True

/-- All generations of the run have distinct handle types. -/
def LoaderState.HandlesDistinct (state : LoaderState) : Prop :=
  ∀ g ∈ state.generations, g.manifest.HandlesDistinct

theorem LoaderState.HandlesDistinct.afterOutcome {state next : LoaderState}
    {action : LoaderAction} (hdistinct : state.HandlesDistinct)
    (haction : action.HandlesDistinct)
    (houtcome : state.Outcome action next) : next.HandlesDistinct := by
  cases houtcome with
  | begun action host args restore counter registry commit hbegins hcommitted =>
      have hhost : host.HandlesDistinct := by
        cases hbegins <;> exact haction
      intro g hg
      rcases List.mem_append.mp hg with hold | hnew
      · exact hdistinct g hold
      · rw [List.mem_singleton.mp hnew]
        cases hcommitted with
        | committed opened prepared hadmitted hprepare =>
            obtain ⟨hdlopen, hmanifest⟩ := admitLoad_manifest hadmitted
            exact hhost _ _ hdlopen hmanifest
  | _ => exact hdistinct

/-- In one manifest the class name determines the handle type. -/
theorem Manifest.HandlesDistinct.eq_of_lispName {manifest : Manifest}
    (hdistinct : manifest.HandlesDistinct) {h h' : HandleSpec}
    (hmem : h ∈ manifest.handles) (hmem' : h' ∈ manifest.handles)
    (hname : stringUpcase h.lispName = stringUpcase h'.lispName) : h = h' :=
  List.inj_on_of_nodup_map hdistinct.lispNames hmem hmem' hname

/-! ## Provenance -/

/-- The pointer was made by a constructor of the wrapper's own crate,
generation and session, for the Rust type of the position. -/
def CrateWrapper.Receives (w : CrateWrapper) (allocations : List Allocation)
    (token : Datum) (ptr : ℕ) : Prop :=
  ∃ made, allocations[ptr]? = some made ∧ made.crate = w.crate ∧
    made.generation = w.ctx.generation ∧ made.session = w.ctx.session ∧
    made.library = w.fnPtr.library ∧
    ∃ rustType, token.stringDesignator = some rustType ∧
      made.rustType = some rustType

structure Allocation.MadeBy (made : Allocation) (g : Generation) : Prop where
  crate : made.crate = g.crate
  generation : made.generation = g.number
  session : made.session = g.library.session
  library : made.library = g.library

/-- The free shim is that of the generation that made the pointer, for the
pointer's own type. -/
def ReleasedByMaker (generations : List Generation)
    (allocations : List Allocation) (ptr : ℕ) (freePtr : ForeignPtr) : Prop :=
  ∃ made g rustType, allocations[ptr]? = some made ∧ g ∈ generations ∧
    made.MadeBy g ∧ made.rustType = some rustType ∧
    g.FreeShim rustType freePtr

namespace ImageState

variable {n : ℕ}

/-- Every export got pointers of its own generation and type, and every
pointer was released by the shim of its maker. -/
structure Provenance (state : ImageState n) : Prop where
  exports : ∀ session w handles,
    (session, .export w handles) ∈ state.transcript →
      ∀ token ptr, (token, ptr) ∈ handles →
        w.Receives state.allocations token ptr
  frees : ∀ session freePtr ptr,
    (session, .free freePtr ptr) ∈ state.transcript →
      ReleasedByMaker state.loader.generations state.allocations ptr freePtr

/-! ## The invariant -/

/-- A handle and the generation that made it. -/
structure HandleMadeBy (state : ImageState n) (object : HandleObject)
    (g : Generation) (h : HandleSpec) (made : Allocation) : Prop where
  generation_mem : g ∈ state.loader.generations
  handle_mem : h ∈ g.manifest.handles
  allocated : state.allocations[object.cell.ptr]? = some made
  maker : made.MadeBy g
  rustType : made.rustType = some h.rustName
  className : object.cls.name = stringUpcase h.lispName
  classOwner : state.loader.registry.classOwner object.cls = some g.crate
  generation : object.cell.generation = g.number
  session : object.cell.session = g.library.session
  free : g.FreeShim h.rustName object.cell.freeFn

def FrameSound (state : ImageState n) : Frame → Prop
  | .gating w pending begun =>
      w ∈ state.loader.published ∧
        (∀ entry ∈ pending, entry.1 ∈ w.form.params.map (·.2)) ∧
        ∀ b ∈ begun, w.Receives state.allocations b.token b.ptr
  | .inside w begun =>
      w ∈ state.loader.published ∧
        ∀ b ∈ begun, w.Receives state.allocations b.token b.ptr
  | .unwinding _ => True
  | .releasing _ target =>
      ReleasedByMaker state.loader.generations state.allocations target.1
        target.2
  | .dumping _ => True

structure ProvenanceInvariant (state : ImageState n) : Prop where
  loader : state.loader.Invariant
  distinct : state.loader.HandlesDistinct
  handles : ∀ object ∈ state.handles,
    ∃ g h made, state.HandleMadeBy object g h made
  frames : ∀ thread, ∀ frame ∈ state.threads thread, state.FrameSound frame
  transcript : state.Provenance

/-- Nothing that provenance rests on is taken back. -/
structure Extends (state next : ImageState n) : Prop where
  generations : ∀ g ∈ state.loader.generations, g ∈ next.loader.generations
  published : ∀ w ∈ state.loader.published, w ∈ next.loader.published
  owners : ∀ cls owner, state.loader.registry.classOwner cls = some owner →
    next.loader.registry.classOwner cls = some owner
  allocations : ∀ (ptr : ℕ) (made : Allocation),
    state.allocations[ptr]? = some made → next.allocations[ptr]? = some made

omit [LispCase] in
theorem Extends.of_loader_eq {state next : ImageState n}
    (hloader : next.loader = state.loader)
    (hallocations : next.allocations = state.allocations) :
    state.Extends next where
  generations := fun g hg => by rwa [hloader]
  published := fun w hw => by rwa [hloader]
  owners := fun cls owner howner => by rwa [hloader]
  allocations := fun ptr made hmade => by rwa [hallocations]

namespace Extends

variable {state next : ImageState n}

omit [LispCase] in
theorem receives (hextends : state.Extends next) {w : CrateWrapper}
    {token : Datum} {ptr : ℕ}
    (hreceives : w.Receives state.allocations token ptr) :
    w.Receives next.allocations token ptr := by
  obtain ⟨made, hmade, hrest⟩ := hreceives
  exact ⟨made, hextends.allocations ptr made hmade, hrest⟩

omit [LispCase] in
theorem releasedByMaker (hextends : state.Extends next) {ptr : ℕ}
    {freePtr : ForeignPtr}
    (hreleased : ReleasedByMaker state.loader.generations state.allocations ptr
      freePtr) :
    ReleasedByMaker next.loader.generations next.allocations ptr freePtr := by
  obtain ⟨made, g, rustType, hmade, hg, hrest⟩ := hreleased
  exact ⟨made, g, rustType, hextends.allocations ptr made hmade,
    hextends.generations g hg, hrest⟩

theorem handleMadeBy (hextends : state.Extends next) {object : HandleObject}
    {g : Generation} {h : HandleSpec} {made : Allocation}
    (hmade : state.HandleMadeBy object g h made) :
    next.HandleMadeBy object g h made :=
  { hmade with
    generation_mem := hextends.generations g hmade.generation_mem
    allocated := hextends.allocations _ made hmade.allocated
    classOwner := hextends.owners _ _ hmade.classOwner }

omit [LispCase] in
theorem frameSound (hextends : state.Extends next) {frame : Frame}
    (hsound : state.FrameSound frame) : next.FrameSound frame := by
  cases frame with
  | gating w pending begun =>
      obtain ⟨hpublished, hpending, hbegun⟩ := hsound
      exact ⟨hextends.published w hpublished, hpending,
        fun b hb => hextends.receives (hbegun b hb)⟩
  | inside w begun =>
      obtain ⟨hpublished, hbegun⟩ := hsound
      exact ⟨hextends.published w hpublished,
        fun b hb => hextends.receives (hbegun b hb)⟩
  | unwinding begun => trivial
  | releasing handle target => exact hextends.releasedByMaker hsound
  | dumping remaining => trivial

omit [LispCase] in
theorem provenance_logCalls (hextends : state.Extends next)
    (hprovenance : state.Provenance) (calls : List (ℕ × ForeignCall))
    (htranscript : next.transcript = state.transcript ++ calls)
    (hexports : ∀ session w handles, (session, .export w handles) ∈ calls →
      ∀ token ptr, (token, ptr) ∈ handles →
        w.Receives next.allocations token ptr)
    (hfrees : ∀ session freePtr ptr, (session, .free freePtr ptr) ∈ calls →
      ReleasedByMaker next.loader.generations next.allocations ptr freePtr) :
    next.Provenance := by
  constructor
  · intro session w handles hmem token ptr hhandle
    rw [htranscript] at hmem
    rcases List.mem_append.mp hmem with hold | hnew
    · exact hextends.receives
        (hprovenance.exports session w handles hold token ptr hhandle)
    · exact hexports session w handles hnew token ptr hhandle
  · intro session freePtr ptr hmem
    rw [htranscript] at hmem
    rcases List.mem_append.mp hmem with hold | hnew
    · exact hextends.releasedByMaker
        (hprovenance.frees session freePtr ptr hold)
    · exact hfrees session freePtr ptr hnew

end Extends

/-- The two gates together leave only pointers of the wrapper's own
generation and of the position's type. -/
theorem receives_of_gate {state : ImageState n} {object : HandleObject}
    (hinv : state.ProvenanceInvariant) {w : CrateWrapper} {token : Datum}
    (hpublished : w ∈ state.loader.published)
    (hobject : object ∈ state.handles)
    (hmentions : w.MentionsHandle token object.cls)
    (hverdict : (object.cell.beginCall state.loader.session
      w.ctx.generation).1 = none) :
    w.Receives state.allocations token object.cell.ptr := by
  obtain ⟨g, h, made, hmade⟩ := hinv.handles object hobject
  obtain ⟨g', hg', hborn, howned⟩ := hinv.loader.published w hpublished
  -- the class gate: one owner, so one crate
  have hcrate : g.crate = g'.crate := by
    have howner := howned token object.cls hmentions
    rw [hmade.classOwner] at howner
    exact Option.some.inj howner
  -- `cell-begin-call`: the same number, so the same generation
  obtain ⟨-, -, hnumber⟩ := (Cell.beginCall_fst_eq_none_iff _ _ _).mp hverdict
  have hsame : g = g' := by
    apply hinv.loader.unique g hmade.generation_mem g' hg' hcrate
    rw [← hmade.generation, hnumber, hborn.number]
  subst hsame
  -- the class name: one handle type of the manifest
  obtain ⟨h', hmem', htoken, hname'⟩ := hborn.handles token object.cls hmentions
  have hspec : h = h' :=
    (hinv.distinct g hg').eq_of_lispName hmade.handle_mem hmem'
      (hmade.className.symm.trans hname')
  subst hspec
  refine ⟨made, hmade.allocated, ?_, ?_, ?_, ?_, h.rustName, htoken,
    hmade.rustType⟩
  · rw [hmade.maker.crate, hborn.crate]
  · rw [hmade.maker.generation, hborn.number]
  · rw [hmade.maker.session, hborn.session]
  · rw [hmade.maker.library, hborn.fnPtr]

/-! ## Preservation -/

/-- Frames and calls only: the top of one thread changes, and calls with
sound handles may be logged. -/
theorem ProvenanceInvariant.afterFrames {state : ImageState n}
    (hinv : state.ProvenanceInvariant) (calls : List ForeignCall)
    (thread : Fin n) (frames : List Frame)
    (hframes : ∀ frame ∈ frames, state.FrameSound frame)
    (hexports : ∀ w handles, .export w handles ∈ calls →
      ∀ token ptr, (token, ptr) ∈ handles →
        w.Receives state.allocations token ptr)
    (hfrees : ∀ freePtr ptr, .free freePtr ptr ∈ calls →
      ReleasedByMaker state.loader.generations state.allocations ptr
        freePtr) :
    ((state.logCalls calls).setFrames thread frames).ProvenanceInvariant := by
  have hextends : state.Extends
      ((state.logCalls calls).setFrames thread frames) :=
    .of_loader_eq rfl rfl
  constructor
  · exact hinv.loader
  · exact hinv.distinct
  · intro object hobject
    obtain ⟨g, h, made, hmade⟩ := hinv.handles object hobject
    exact ⟨g, h, made, hextends.handleMadeBy hmade⟩
  · intro other frame hframe
    apply hextends.frameSound
    by_cases hother : other = thread
    · subst hother
      simp only [setFrames, Function.update_self] at hframe
      exact hframes frame hframe
    · simp only [setFrames, Function.update_of_ne hother] at hframe
      exact hinv.frames other frame hframe
  · apply hextends.provenance_logCalls hinv.transcript _ rfl
    · intro session w handles hmem
      obtain ⟨call, hcall, heq⟩ := List.mem_map.mp hmem
      cases heq
      exact hexports w handles hcall
    · intro session freePtr ptr hmem
      obtain ⟨call, hcall, heq⟩ := List.mem_map.mp hmem
      cases heq
      exact hfrees freePtr ptr hcall

theorem ProvenanceInvariant.afterSetFrames {state : ImageState n}
    (hinv : state.ProvenanceInvariant) (thread : Fin n) (frames : List Frame)
    (hframes : ∀ frame ∈ frames, state.FrameSound frame) :
    (state.setFrames thread frames).ProvenanceInvariant := by
  have hlogged := hinv.afterFrames [] thread frames hframes (by simp) (by simp)
  simpa [logCalls] using hlogged

/-- A lock-held section of a cell leaves the handle's identity alone. -/
theorem ProvenanceInvariant.afterSetCell {state : ImageState n}
    (hinv : state.ProvenanceInvariant) {index : ℕ} {object : HandleObject}
    {cell : Cell ℕ ForeignPtr} (hobject : state.handles[index]? = some object)
    (hsame : object.cell.SameHandle cell) :
    (state.setCell index object cell).ProvenanceInvariant := by
  have hextends : state.Extends (state.setCell index object cell) :=
    .of_loader_eq rfl rfl
  constructor
  · exact hinv.loader
  · exact hinv.distinct
  · intro other hother
    rcases List.mem_or_eq_of_mem_set hother with hold | rfl
    · obtain ⟨g, h, made, hmade⟩ := hinv.handles other hold
      exact ⟨g, h, made, hextends.handleMadeBy hmade⟩
    · obtain ⟨g, h, made, hmade⟩ :=
        hinv.handles object (List.mem_of_getElem? hobject)
      exact ⟨g, h, made,
        { hextends.handleMadeBy hmade with
          allocated := hsame.ptr ▸ hmade.allocated
          generation := hsame.generation.trans hmade.generation
          session := hsame.session.trans hmade.session
          free := hsame.freeFn ▸ hmade.free }⟩
  · exact fun thread frame hframe =>
      hextends.frameSound (hinv.frames thread frame hframe)
  · exact hextends.provenance_logCalls hinv.transcript []
      (by simp [setCell]) (by simp) (by simp)

theorem ProvenanceInvariant.afterLogCalls {state : ImageState n}
    (hinv : state.ProvenanceInvariant) (calls : List ForeignCall)
    (hexports : ∀ w handles, .export w handles ∉ calls)
    (hfrees : ∀ freePtr ptr, .free freePtr ptr ∉ calls) :
    (state.logCalls calls).ProvenanceInvariant := by
  have hextends : state.Extends (state.logCalls calls) :=
    .of_loader_eq rfl rfl
  constructor
  · exact hinv.loader
  · exact hinv.distinct
  · intro object hobject
    obtain ⟨g, h, made, hmade⟩ := hinv.handles object hobject
    exact ⟨g, h, made, hextends.handleMadeBy hmade⟩
  · exact fun thread frame hframe =>
      hextends.frameSound (hinv.frames thread frame hframe)
  · apply hextends.provenance_logCalls hinv.transcript _ rfl
    · intro session w handles hmem
      obtain ⟨call, hcall, heq⟩ := List.mem_map.mp hmem
      cases heq
      exact absurd hcall (hexports w handles)
    · intro session freePtr ptr hmem
      obtain ⟨call, hcall, heq⟩ := List.mem_map.mp hmem
      cases heq
      exact absurd hcall (hfrees freePtr ptr)

omit [LispCase] in
theorem export_notMem_hookCalls (state : ImageState n) {name : String}
    {status : ℤ} (w : CrateWrapper) (handles : List (Datum × ℕ)) :
    .export w handles ∉ state.hookCalls name status := by
  intro hcall
  obtain ⟨_, _, -, -, hhook | ⟨_, -, herror⟩⟩ := mem_hookCalls hcall
  · cases hhook
  · cases herror

omit [LispCase] in
theorem free_notMem_hookCalls (state : ImageState n) {name : String}
    {status : ℤ} (freePtr : ForeignPtr) (ptr : ℕ) :
    .free freePtr ptr ∉ state.hookCalls name status := by
  intro hcall
  obtain ⟨_, _, -, -, hhook | ⟨_, -, herror⟩⟩ := mem_hookCalls hcall
  · cases hhook
  · cases herror

section MakeCrateHandle

variable (state : ImageState n) (w : CrateWrapper) (token : Datum)
  (cls : Symbol)

omit [LispCase] in
theorem makeCrateHandle_loader :
    (state.makeCrateHandle w token cls).loader = state.loader := by
  unfold makeCrateHandle
  split <;> rfl

omit [LispCase] in
theorem makeCrateHandle_threads :
    (state.makeCrateHandle w token cls).threads = state.threads := by
  unfold makeCrateHandle
  split <;> rfl

omit [LispCase] in
theorem makeCrateHandle_transcript :
    (state.makeCrateHandle w token cls).transcript = state.transcript := by
  unfold makeCrateHandle
  split <;> rfl

omit [LispCase] in
theorem makeCrateHandle_allocations :
    (state.makeCrateHandle w token cls).allocations =
      state.allocations ++
        [{ crate := w.crate
           generation := w.ctx.generation
           session := w.ctx.session
           library := w.fnPtr.library
           rustType := token.stringDesignator }] := by
  unfold makeCrateHandle
  split <;> rfl

omit [LispCase] in
/-- The new handle, if there is one, has the free shim that the context
records for its type. -/
theorem mem_handles_makeCrateHandle {object : HandleObject}
    (hobject : object ∈ (state.makeCrateHandle w token cls).handles) :
    object ∈ state.handles ∨ ∃ rustType freePtr,
      token.stringDesignator = some rustType ∧
      (rustType, freePtr) ∈ w.ctx.freeTable ∧
      object =
        { cls := cls
          cell := makeCell state.allocations.length w.ctx.generation
            w.ctx.session freePtr } := by
  unfold makeCrateHandle at hobject
  split at hobject
  · exact .inl hobject
  · rename_i freePtr hfree
    rcases List.mem_append.mp hobject with hold | hnew
    · exact .inl hold
    · obtain ⟨rustType, htoken, hlookup⟩ := Option.bind_eq_some_iff.mp hfree
      exact .inr ⟨rustType, freePtr, htoken, mem_of_lookup_eq_some hlookup,
        List.mem_singleton.mp hnew⟩

end MakeCrateHandle

/-- A constructor's handle is stamped with the wrapper's own generation. -/
theorem ProvenanceInvariant.afterMakeCrateHandle {state : ImageState n}
    (hinv : state.ProvenanceInvariant) {w : CrateWrapper} {token : Datum}
    {cls : Symbol} (hpublished : w ∈ state.loader.published)
    (hresult : w.form.result = .handle token cls) :
    (state.makeCrateHandle w token cls).ProvenanceInvariant ∧
      state.Extends (state.makeCrateHandle w token cls) := by
  obtain ⟨g, hg, hborn, howned⟩ := hinv.loader.published w hpublished
  obtain ⟨h, hmem, htoken, hname⟩ := hborn.handles token cls (.inr hresult)
  have hextends : state.Extends (state.makeCrateHandle w token cls) := by
    refine ⟨fun _ => ?_, fun _ => ?_, fun _ _ => ?_, fun ptr made hmade => ?_⟩
    · simp [makeCrateHandle_loader]
    · simp [makeCrateHandle_loader]
    · simp [makeCrateHandle_loader]
    · rw [makeCrateHandle_allocations]
      rw [List.getElem?_append_left (List.getElem?_eq_some_iff.mp hmade).1]
      exact hmade
  refine ⟨⟨?_, ?_, ?_, ?_, ?_⟩, hextends⟩
  · rw [makeCrateHandle_loader]
    exact hinv.loader
  · rw [makeCrateHandle_loader]
    exact hinv.distinct
  · intro object hobject
    rcases state.mem_handles_makeCrateHandle w token cls hobject with
      hold | ⟨rustType, freePtr, htype, hfree, rfl⟩
    · obtain ⟨g', h', made, hmade⟩ := hinv.handles object hold
      exact ⟨g', h', made, hextends.handleMadeBy hmade⟩
    · obtain rfl : h.rustName = rustType := by
        simpa [htoken] using htype
      let made : Allocation :=
        { crate := w.crate
          generation := w.ctx.generation
          session := w.ctx.session
          library := w.fnPtr.library
          rustType := token.stringDesignator }
      have hmaker : made.MadeBy g :=
        ⟨hborn.crate, hborn.number, hborn.session, hborn.fnPtr⟩
      refine ⟨g, h, made, ?_, hmem, ?_, hmaker, htoken, hname, ?_,
        hborn.number, hborn.session, hborn.frees _ _ hfree⟩
      · rw [makeCrateHandle_loader]
        exact hg
      · rw [makeCrateHandle_allocations]
        simp [makeCell, made]
      · rw [makeCrateHandle_loader]
        exact howned token cls (.inr hresult)
  · intro thread frame hframe
    rw [makeCrateHandle_threads] at hframe
    exact hextends.frameSound (hinv.frames thread frame hframe)
  · exact hextends.provenance_logCalls hinv.transcript []
      (by simp [makeCrateHandle_transcript]) (by simp) (by simp)

theorem ProvenanceInvariant.afterReturnValue {state : ImageState n}
    (hinv : state.ProvenanceInvariant) {w : CrateWrapper}
    (transferred : Bool) (hpublished : w ∈ state.loader.published) :
    (state.returnValue w transferred).ProvenanceInvariant ∧
      state.Extends (state.returnValue w transferred) := by
  unfold returnValue
  split
  · rename_i token cls hresult
    exact hinv.afterMakeCrateHandle hpublished hresult
  · split
    · exact ⟨hinv.afterLogCalls _ (by simp) (by simp), .of_loader_eq rfl rfl⟩
    · exact ⟨hinv, .of_loader_eq rfl rfl⟩

theorem ProvenanceInvariant.afterRelease {state : ImageState n}
    (hinv : state.ProvenanceInvariant) (thread : Fin n) (handle : ℕ)
    {target : Option (ℕ × ForeignPtr)} {rest : List Frame}
    (htarget : ∀ found, target = some found →
      ReleasedByMaker state.loader.generations state.allocations found.1
        found.2)
    (hrest : ∀ frame ∈ rest, state.FrameSound frame) :
    (state.release thread handle target rest).ProvenanceInvariant := by
  cases target with
  | none => exact hinv.afterSetFrames thread rest hrest
  | some found =>
      apply hinv.afterSetFrames
      exact List.forall_mem_cons.mpr ⟨htarget found rfl, hrest⟩

/-- The target of a deferred or immediate free is the cell's own. -/
theorem releasedByMaker_of_handle {state : ImageState n}
    (hinv : state.ProvenanceInvariant) {object : HandleObject}
    (hobject : object ∈ state.handles) :
    ReleasedByMaker state.loader.generations state.allocations
      object.cell.ptr object.cell.freeFn := by
  obtain ⟨g, h, made, hmade⟩ := hinv.handles object hobject
  exact ⟨made, g, h.rustName, hmade.allocated, hmade.generation_mem,
    hmade.maker, hmade.rustType, hmade.free⟩

theorem export_notMem_loaderCalls (action : LoaderAction)
    (loader : LoaderState) (w : CrateWrapper) (handles : List (Datum × ℕ)) :
    .export w handles ∉ action.calls loader := by
  intro hcall
  obtain ⟨symbol, heq⟩ := loaderCalls_fn action loader _ hcall
  cases heq

theorem free_notMem_loaderCalls (action : LoaderAction)
    (loader : LoaderState) (freePtr : ForeignPtr) (ptr : ℕ) :
    .free freePtr ptr ∉ action.calls loader := by
  intro hcall
  obtain ⟨symbol, heq⟩ := loaderCalls_fn action loader _ hcall
  cases heq

theorem ProvenanceInvariant.afterLoader {state : ImageState n}
    (hinv : state.ProvenanceInvariant) {action : LoaderAction}
    {loader : LoaderState} (hdistinct : action.HandlesDistinct)
    (houtcome : state.loader.Outcome action loader) :
    ({ state.logCalls (action.calls state.loader) with
        loader := loader
        threads :=
          if action.endsThreads then fun _ => []
          else state.threads } : ImageState n).ProvenanceInvariant := by
  have hlogged := hinv.afterLogCalls (action.calls state.loader)
    (export_notMem_loaderCalls action state.loader)
    (free_notMem_loaderCalls action state.loader)
  have hextends : (state.logCalls (action.calls state.loader)).Extends
      { state.logCalls (action.calls state.loader) with
        loader := loader
        threads :=
          if action.endsThreads then fun _ => []
          else state.threads } :=
    { generations := houtcome.generations_kept
      published := houtcome.published_kept
      owners := fun cls owner howner => houtcome.owners_kept hinv.loader howner
      allocations := fun ptr made hmade => hmade }
  constructor
  · exact hinv.loader.afterOutcome houtcome
  · exact hinv.distinct.afterOutcome hdistinct houtcome
  · intro object hobject
    obtain ⟨g, h, made, hmade⟩ := hlogged.handles object hobject
    exact ⟨g, h, made, hextends.handleMadeBy hmade⟩
  · intro thread frame hframe
    simp only at hframe
    split at hframe
    · cases hframe
    · exact hextends.frameSound (hlogged.frames thread frame hframe)
  · exact hextends.provenance_logCalls hlogged.transcript [] (by simp)
      (by simp) (by simp)

theorem ProvenanceInvariant.afterOutcome {state next : ImageState n}
    {action : ImageAction n} (hinv : state.ProvenanceInvariant)
    (hdistinct : action.HandlesDistinct)
    (houtcome : state.Outcome action next) : next.ProvenanceInvariant := by
  have hrest : ∀ {thread : Fin n} {frame : Frame} {rest : List Frame},
      state.threads thread = frame :: rest →
        ∀ other ∈ rest, state.FrameSound other := by
    intro thread frame rest htop other hother
    exact hinv.frames thread other (by simp [htop, hother])
  have htopSound : ∀ {thread : Fin n} {frame : Frame} {rest : List Frame},
      state.threads thread = frame :: rest → state.FrameSound frame := by
    intro thread frame rest htop
    exact hinv.frames thread frame (by simp [htop])
  cases houtcome with
  | loader action loader hstep =>
      exact hinv.afterLoader hdistinct (LoaderState.step_outcome hstep)
  | refused => exact hinv
  | entered thread w args hpublished hsession =>
      apply hinv.afterSetFrames
      refine List.forall_mem_cons.mpr ⟨⟨hpublished, ?_, by simp⟩, ?_⟩
      · exact fun entry hentry => (List.of_mem_zip hentry).1
      · exact hinv.frames thread
  | unwound action thread w pending begun rest htop =>
      apply hinv.afterSetFrames
      exact List.forall_mem_cons.mpr ⟨trivial, hrest htop⟩
  | passed action thread w param pending begun rest htop =>
      obtain ⟨hpublished, hpending, hbegun⟩ := htopSound htop
      apply hinv.afterSetFrames
      refine List.forall_mem_cons.mpr ⟨⟨hpublished, ?_, hbegun⟩, hrest htop⟩
      exact fun entry hentry => hpending entry (List.mem_cons_of_mem _ hentry)
  | gated action thread w token cls arg pending begun rest index object htop
      hobject hclass hverdict =>
      subst hclass
      obtain ⟨hpublished, hpending, hbegun⟩ := htopSound htop
      have hmentions : w.MentionsHandle token object.cls := by
        have hparam := hpending _ List.mem_cons_self
        obtain ⟨⟨name, form⟩, hform, heq⟩ := List.mem_map.mp hparam
        simp only at heq
        subst heq
        exact .inl ⟨name, hform⟩
      have hreceives := receives_of_gate hinv hpublished
        (List.mem_of_getElem? hobject) hmentions hverdict
      have hnext := hinv.afterSetCell hobject
        (object.cell.sameHandle_beginCall state.loader.session
          w.ctx.generation)
      apply hnext.afterSetFrames
      refine List.forall_mem_cons.mpr ⟨⟨hpublished, ?_, ?_⟩, hrest htop⟩
      · exact fun entry hentry => hpending entry (List.mem_cons_of_mem _ hentry)
      · exact List.forall_mem_cons.mpr ⟨hreceives, hbegun⟩
  | invoked thread w begun rest htop =>
      obtain ⟨hpublished, -, hbegun⟩ := htopSound htop
      apply hinv.afterFrames
      · exact List.forall_mem_cons.mpr ⟨⟨hpublished, hbegun⟩, hrest htop⟩
      · intro w' handles hcall token ptr hhandle
        cases List.mem_singleton.mp hcall
        obtain ⟨b, hb, heq⟩ := List.mem_map.mp hhandle
        cases heq
        exact hbegun b (List.mem_reverse.mp hb)
      · simp
  | returnedOk thread transferred w begun rest htop =>
      obtain ⟨hpublished, -⟩ := htopSound htop
      obtain ⟨hnext, hextends⟩ := hinv.afterReturnValue transferred hpublished
      apply hnext.afterSetFrames
      refine List.forall_mem_cons.mpr ⟨trivial, fun frame hframe => ?_⟩
      exact hextends.frameSound (hrest htop frame hframe)
  | returnedStatus thread status w begun rest htop =>
      unfold returnCondition
      split
      · exact hinv.afterFrames _ _ _
          (List.forall_mem_cons.mpr ⟨trivial, hrest htop⟩) (by simp) (by simp)
      · exact hinv.afterSetFrames _ _
          (List.forall_mem_cons.mpr ⟨trivial, hrest htop⟩)
  | left action thread frame rest htop =>
      exact hinv.afterSetFrames thread rest (hrest htop)
  | endedCall thread b begun rest object htop hobject =>
      have hnext := hinv.afterSetCell hobject object.cell.sameHandle_endCall
      apply hnext.afterRelease
      · intro found hfound
        rw [Cell.endCall_target hfound]
        exact releasedByMaker_of_handle hinv (List.mem_of_getElem? hobject)
      · exact List.forall_mem_cons.mpr ⟨trivial, hrest htop⟩
  | freed thread handle object hobject =>
      have hnext := hinv.afterSetCell hobject object.cell.sameHandle_free
      apply hnext.afterRelease
      · intro found hfound
        rw [Cell.free_target hfound]
        exact releasedByMaker_of_handle hinv (List.mem_of_getElem? hobject)
      · exact hinv.frames thread
  | released thread handle target rest object htop hobject hsession =>
      have htarget : ReleasedByMaker _ _ target.1 target.2 := htopSound htop
      apply hinv.afterFrames _ _ _ (hrest htop) (by simp)
      intro freePtr ptr hcall
      cases List.mem_singleton.mp hcall
      exact htarget
  | dumped thread =>
      apply hinv.afterSetFrames
      exact List.forall_mem_cons.mpr ⟨trivial, hinv.frames thread⟩
  | hookRun thread name status remaining rest htop hlock =>
      apply hinv.afterFrames
      · exact List.forall_mem_cons.mpr ⟨trivial, hrest htop⟩
      · exact fun w handles hcall =>
          absurd hcall (export_notMem_hookCalls state w handles)
      · exact fun freePtr ptr hcall =>
          absurd hcall (free_notMem_hookCalls state freePtr ptr)

theorem initial_provenanceInvariant (registry : Registry)
    (hempty : ∀ name, registry.crates name = none) :
    (initial n registry).ProvenanceInvariant where
  loader :=
    { names := fun name crate hcrate => by
        simp [initial, LoaderState.initial, hempty] at hcrate
      numbered := by simp [initial, LoaderState.initial]
      unique := by simp [initial, LoaderState.initial]
      sessions := by simp [initial, LoaderState.initial]
      published := by simp [initial, LoaderState.initial]
      loading := by simp [initial, LoaderState.initial] }
  distinct := by simp [initial, LoaderState.initial, LoaderState.HandlesDistinct]
  handles := by simp [initial]
  frames := by simp [initial]
  transcript := by constructor <;> simp [initial]

end ImageState

/-- Over every run in which the handle types of each manifest are distinct,
from an image that has loaded no crate. -/
theorem handle_provenance {n : ℕ} (registry : Registry)
    (hempty : ∀ name, registry.crates name = none)
    {actions : List (ImageAction n)} {state : ImageState n}
    (hdistinct : ∀ action ∈ actions, action.HandlesDistinct)
    (hrun : (imageSystem n).run (.initial n registry) actions = some state) :
    state.Provenance := by
  have hinv := System.RunMeets.invariant
    (fun _ _ _ haction hinv hstep => hinv.afterOutcome haction
      (ImageState.step_outcome hstep))
    (System.RunMeets.of_forall (imageSystem n)
      (fun action haction _ => hdistinct action haction) _) hrun
    (ImageState.initial_provenanceInvariant registry hempty)
  exact hinv.transcript

end Case

attribute [local instance] standardCase

/-- The wrapper that the demo crate's first generation binds. -/
def demoWrapper (symbol : String) (form : WrapperForm) : CrateWrapper where
  crate := "demo"
  ctx :=
    { generation := 1
      session := 0
      lastErrorPtr := ⟨⟨1, 0⟩, "demo_rulisp_last_error"⟩
      deallocPtr := ⟨⟨1, 0⟩, "demo_rulisp_dealloc"⟩
      freeTable := [("Bag", ⟨⟨1, 0⟩, "demo_rulisp_free_bag"⟩)]
      errorConditions := [] }
  fnPtr := ⟨⟨1, 0⟩, symbol⟩
  form := form

def demoMakeBag : CrateWrapper :=
  demoWrapper "demo_rulisp_make_bag"
    { params := []
      result := .handle (.string "Bag") ⟨"DEMO", "BAG"⟩
      qualified := "demo:make-bag" }

def demoBagLen : CrateWrapper :=
  demoWrapper "demo_rulisp_bag_len"
    { params := [("SELF", .handle (.string "Bag") ⟨"DEMO", "BAG"⟩)]
      result := .scalar .uint64
      qualified := "demo:bag-len" }

/-- Load the demo crate, make a bag, call a method on it and free it. -/
def demoRun : List (ImageAction 1) :=
  .loader (.load demoLoad (demoHost demoExports)) ::
  (List.replicate 10 (.loader (.publish none)) ++
  [.loader .sweep,
    .enter 0 demoMakeBag [], .invoke 0, .returnOk 0 false, .endCall 0,
    .enter 0 demoBagLen [.handle 0], .check 0 false, .invoke 0,
    .returnOk 0 false, .endCall 0, .endCall 0,
    .free 0 0, .foreignFree 0])
theorem demoHost_handlesDistinct : (demoHost demoExports).HandlesDistinct := by
  intro image manifest himage hmanifest
  cases himage
  have hhandles : (parseManifest demoManifest).map Manifest.handles =
      .ok [{ rustName := "Bag", lispName := "bag", free := "free_bag",
             doc := none }] := by
    decide
  have hparsed : parseManifest demoManifest = .ok manifest := hmanifest
  rw [hparsed] at hhandles
  have hbag := Except.ok.inj hhandles
  exact ⟨by rw [hbag]; decide, by rw [hbag]; decide⟩

theorem demoRun_handlesDistinct :
    ∀ action ∈ demoRun, action.HandlesDistinct := by
  intro action haction
  rcases List.mem_cons.mp haction with rfl | hrest
  · exact demoHost_handlesDistinct
  · simp only [List.mem_append, List.mem_replicate, List.mem_cons,
      List.not_mem_nil, or_false] at hrest
    rcases hrest with ⟨-, rfl⟩ | hrest
    · trivial
    · rcases hrest with rfl | rfl | rfl | rfl | rfl | rfl | rfl | rfl | rfl |
        rfl | rfl | rfl | rfl <;> trivial

theorem handle_provenance_demo :
    ∃ state, (imageSystem 1).run (.initial 1 .empty) demoRun = some state ∧
      state.Provenance ∧
      (0, .export demoBagLen [(.string "Bag", 0)]) ∈ state.transcript := by
  refine ⟨_, rfl, handle_provenance .empty (fun _ => rfl)
    demoRun_handlesDistinct rfl, ?_⟩
  decide

end Rulisp
