import Rulisp.BufferTransfer
import Rulisp.HandleProvenance

/-!
# Buffer ownership

Every transferred buffer is held by exactly one taking frame or has been
released exactly once, by the library that allocated it and with the layout
it was allocated with; nothing else reaches a `dealloc` entry.  The counter
of each library counts its buffers that are still held.
-/

namespace Rulisp

open TransitionSystem

/-! ## Libraries built with the macros -/

/-- The functions of the manifest are the metadata of exported functions,
and at the entry point of each is its expanded shim. -/
def MacroBuilt (code : ForeignPtr → Option Shim) (library : Library)
    (manifest : Manifest) : Prop :=
  ∃ fns : List ExportedFn,
    manifest.functions = fns.map (fun f => (genMetaConst f).spec) ∧
      ∀ f ∈ fns, ∃ shim, genFn manifest.pfx f = .ok shim ∧
        code { library := library, symbol := manifest.pfx ++ f.symbol } =
          some shim

/-- What the host opens for this load was built with the macros. -/
def LoadHost.MacroBuilt (host : LoadHost) (code : ForeignPtr → Option Shim)
    (library : Library) : Prop :=
  ∀ image manifest, host.dlopen = .ok image →
    (image.form >>= parseManifest) = .ok manifest →
      Rulisp.MacroBuilt code library manifest

def BufferState.LoadsMacroBuilt {n : ℕ} (code : ForeignPtr → Option Shim)
    (state : BufferState n) : BufferAction n → Prop
  | .loader (.load _ host) => host.MacroBuilt code state.loader.nextLibrary
  | .loader (.restoreCrate _ host) =>
      host.MacroBuilt code state.loader.nextLibrary
  | _ => True

/-- A wrapper's result form is that of the shim it calls. -/
theorem CrateWrapper.BornOf.result_hasForm [LispCase] {w : CrateWrapper}
    {g : Generation} (hborn : w.BornOf g) {code : ForeignPtr → Option Shim}
    (hbuilt : MacroBuilt code g.library g.manifest) :
    ∃ shim classOf, code w.fnPtr = some shim ∧
      shim.result.HasForm classOf w.form.result := by
  obtain ⟨fns, hfunctions, hcode⟩ := hbuilt
  obtain ⟨spec, hspec, hsymbol, classOf, qualified, hform⟩ := hborn.entry
  rw [hfunctions] at hspec
  obtain ⟨f, hf, rfl⟩ := List.mem_map.mp hspec
  obtain ⟨shim, hshim, hfound⟩ := hcode f hf
  have hfnPtr : w.fnPtr =
      { library := g.library, symbol := g.manifest.pfx ++ f.symbol } := by
    rw [← hborn.fnPtr]
    exact congrArg (ForeignPtr.mk w.fnPtr.library) hsymbol
  refine ⟨shim, classOf, by rw [hfnPtr, hfound], ?_⟩
  rw [(genFn_eq_ok hshim).2.1]
  exact (wrapperForm_hasForms hform).2

/-! ## One transfer -/

/-- The allocation of a transfer and the taker's arguments. -/
inductive TakeMatches (next : ℕ) : Option Layout → Option Take → Prop
  | none : TakeMatches next none none
  | empty (align : ℕ) : TakeMatches next none (some ⟨.dangling, 0, align⟩)
  | buffer (layout : Layout) (hsize : 0 < layout.size) :
      TakeMatches next (some layout)
        (some ⟨.buffer next, layout.size, layout.align⟩)

theorem intoRaw_matches (next len size align : ℕ) (hsize : 0 < size) :
    ∃ ptr length layout, intoRaw next len size align =
        ([.pointer ptr, .length length], layout) ∧
      TakeMatches next layout (some ⟨ptr, length * size, align⟩) := by
  by_cases hlen : len = 0
  · refine ⟨.dangling, 0, none, ?_, ?_⟩
    · simp [intoRaw, hlen]
    · rw [Nat.zero_mul]
      exact .empty align
  · refine ⟨.buffer next, len, some ⟨len * size, align⟩, ?_, ?_⟩
    · simp [intoRaw, hlen]
    · exact .buffer ⟨len * size, align⟩
        (Nat.mul_pos (Nat.pos_of_ne_zero hlen) hsize)

theorem Scalar.sizeOf_pos (s : Scalar) : 0 < s.sizeOf := by
  cases s <;> decide

/-- The element size that the loader multiplies by is Rust's. -/
theorem Scalar.vecElt_size (s : Scalar) : s.vecElt.size = s.sizeOf := by
  cases s <;> rfl

theorem RTy.HasForm.taker_transfer {classOf : Datum → LispResult Symbol}
    {rty : RTy} {form : ResultForm} (hform : rty.HasForm classOf form)
    {next : ℕ} {result : RustValue} {objects : List OutObject}
    {layout : Option Layout}
    (htransfer : rty.transfer next result = some (objects, layout)) :
    TakeMatches next layout (form.taker objects) := by
  have hbytes : ∀ len, ∃ ptr length made,
      intoRaw next len 1 1 = ([.pointer ptr, .length length], made) ∧
        TakeMatches next made (some ⟨ptr, length, 1⟩) := by
    intro len
    obtain ⟨ptr, length, made, hraw, hmatches⟩ :=
      intoRaw_matches next len 1 1 Nat.one_pos
    rw [Nat.mul_one] at hmatches
    exact ⟨ptr, length, made, hraw, hmatches⟩
  unfold RTy.transfer at htransfer
  split at htransfer
  · cases hform
    cases htransfer
    exact .none
  · cases hform
    cases htransfer
    exact .none
  · cases hform
    cases htransfer
    exact .none
  · rename_i s
    cases hform
    obtain ⟨ptr, length, made, hraw, hmatches⟩ :=
      hbytes (Utf8.octetsOf s).length
    rw [hraw] at htransfer
    cases htransfer
    exact hmatches
  · rename_i octets
    cases hform
    obtain ⟨ptr, length, made, hraw, hmatches⟩ := hbytes octets.length
    rw [hraw] at htransfer
    cases htransfer
    exact hmatches
  · cases hform
    cases htransfer
    exact .none
  · rename_i s elements
    cases hform
    obtain ⟨ptr, length, made, hraw, hmatches⟩ :=
      intoRaw_matches next elements.length s.sizeOf s.alignOf s.sizeOf_pos
    rw [hraw] at htransfer
    cases htransfer
    simpa [ResultForm.taker, readBuffer, s.vecElt_size, Scalar.alignOf] using
      hmatches
  · cases hform
    cases htransfer
    exact .none
  · cases hform
    cases htransfer
    exact .none
  · rename_i s
    cases hform
    obtain ⟨ptr, length, made, hraw, hmatches⟩ :=
      hbytes (Utf8.octetsOf s).length
    rw [hraw] at htransfer
    cases htransfer
    exact hmatches
  · cases hform
    cases htransfer
    exact .none
  · rename_i octets
    cases hform
    obtain ⟨ptr, length, made, hraw, hmatches⟩ := hbytes octets.length
    rw [hraw] at htransfer
    cases htransfer
    exact hmatches
  · cases hform
    cases htransfer
    exact .none
  · cases htransfer

/-! ## Ownership -/

def BufferFrame.wrapper : BufferFrame → CrateWrapper
  | .checking w | .inside w | .signaling w | .taking w _ => w

/-- The frame is about to release this buffer. -/
def BufferFrame.holds (index : ℕ) : BufferFrame → Bool
  | .taking _ take => decide (take.ptr = .buffer index)
  | _ => false

namespace BufferState

variable {n : ℕ}

/-- How often the buffer was passed to a `dealloc` entry. -/
def releases (state : BufferState n) (index : ℕ) : ℕ :=
  state.deallocs.countP fun call => decide (call.take.ptr = .buffer index)

def holders (state : BufferState n) (index : ℕ) : ℕ :=
  ∑ thread, (state.threads thread).countP (BufferFrame.holds index)

/-- The buffers of a library that are not released yet. -/
def unreleased (state : BufferState n) (library : Library) : Finset ℕ :=
  (Finset.range state.buffers.length).filter fun index =>
    (state.buffers[index]?.map Buffer.library) = some library ∧
      state.releases index = 0

/-- The call releases a transferred buffer through the `dealloc` entry of the
generation whose library allocated it, with the layout of the allocation. -/
def Releases (state : BufferState n) (call : Dealloc) : Prop :=
  ∃ index buffer g, call.take.ptr = .buffer index ∧
    state.buffers[index]? = some buffer ∧
    g ∈ state.loader.generations ∧ g.library = buffer.library ∧
    call.fn =
      { library := buffer.library, symbol := g.manifest.pfx ++ "dealloc" } ∧
    call.take.size = buffer.layout.size ∧ call.take.align = buffer.layout.align

structure Ownership (state : BufferState n) : Prop where
  /-- Held by one frame or released once. -/
  balanced : ∀ index < state.buffers.length,
    state.releases index + state.holders index = 1
  /-- Once no result is being taken, every buffer was released. -/
  settled : (∀ thread, ∀ frame ∈ state.threads thread,
      ∀ w take, frame ≠ .taking w take) →
    ∀ index < state.buffers.length, state.releases index = 1
  matched : ∀ call ∈ state.deallocs, state.Releases call
  live : ∀ library, state.live library = (state.unreleased library).card

/-- The arguments of a taker's cleanup: nothing to release, or a buffer of
the wrapper's own library with its layout. -/
def TakeSound (state : BufferState n) (w : CrateWrapper) (take : Take) :
    Prop :=
  (take.size = 0 ∧ take.ptr = .dangling) ∨
    ∃ index buffer, take.ptr = .buffer index ∧
      state.buffers[index]? = some buffer ∧
      buffer.library = w.fnPtr.library ∧ take.size = buffer.layout.size ∧
      take.align = buffer.layout.align ∧ 0 < take.size

structure OwnershipInvariant [LispCase] (code : ForeignPtr → Option Shim)
    (state : BufferState n) : Prop where
  loader : state.loader.Invariant
  built : ∀ g ∈ state.loader.generations,
    MacroBuilt code g.library g.manifest
  frames : ∀ thread, ∀ frame ∈ state.threads thread,
    frame.wrapper ∈ state.loader.published
  takes : ∀ thread w take, .taking w take ∈ state.threads thread →
    state.TakeSound w take
  counted : ∀ index, state.releases index + state.holders index =
    if index < state.buffers.length then 1 else 0
  matched : ∀ call ∈ state.deallocs, state.Releases call
  live : ∀ library, state.live library = (state.unreleased library).card

theorem holders_setFrames (state : BufferState n) (thread : Fin n)
    (frames : List BufferFrame) (index : ℕ) :
    (state.setFrames thread frames).holders index +
        (state.threads thread).countP (BufferFrame.holds index) =
      state.holders index + frames.countP (BufferFrame.holds index) :=
  sum_update_add (fun frames => frames.countP (BufferFrame.holds index))
    state.threads thread frames

theorem mem_setFrames {state : BufferState n} {thread other : Fin n}
    {frames : List BufferFrame} {frame : BufferFrame}
    (hframe : frame ∈ (state.setFrames thread frames).threads other) :
    frame ∈ frames ∨ frame ∈ state.threads other := by
  by_cases hother : other = thread
  · subst hother
    simp only [setFrames, Function.update_self] at hframe
    exact .inl hframe
  · simp only [setFrames, Function.update_of_ne hother] at hframe
    exact .inr hframe

namespace OwnershipInvariant

variable {code : ForeignPtr → Option Shim} {state : BufferState n}

/-- The top frame is replaced by one that holds the same buffers. -/
theorem afterFrames [LispCase]
    (hinv : state.OwnershipInvariant code) (thread : Fin n)
    {frames : List BufferFrame}
    (hwrappers : ∀ frame ∈ frames, frame.wrapper ∈ state.loader.published)
    (htakes : ∀ w take, .taking w take ∈ frames → state.TakeSound w take)
    (hsame : ∀ index, frames.countP (BufferFrame.holds index) =
      (state.threads thread).countP (BufferFrame.holds index)) :
    (state.setFrames thread frames).OwnershipInvariant code := by
  constructor
  · exact hinv.loader
  · exact hinv.built
  · intro other frame hframe
    rcases mem_setFrames hframe with hnew | hold
    · exact hwrappers frame hnew
    · exact hinv.frames other frame hold
  · intro other w take hframe
    rcases mem_setFrames hframe with hnew | hold
    · exact htakes w take hnew
    · exact hinv.takes other w take hold
  · intro index
    have hcounted := hinv.counted index
    have hholders := state.holders_setFrames thread frames index
    have hreleases : (state.setFrames thread frames).releases index =
        state.releases index := rfl
    have hbuffers : (state.setFrames thread frames).buffers = state.buffers :=
      rfl
    rw [hsame index] at hholders
    rw [hreleases, hbuffers, ← hcounted]
    omega
  · exact hinv.matched
  · exact hinv.live

/-! ### Allocation -/

theorem countP_inside (w : CrateWrapper) (rest : List BufferFrame)
    (index : ℕ) :
    (BufferFrame.inside w :: rest).countP (BufferFrame.holds index) =
      rest.countP (BufferFrame.holds index) := by
  simp [BufferFrame.holds]

theorem countP_taking (w : CrateWrapper) (take : Take)
    (rest : List BufferFrame) (index : ℕ) :
    (BufferFrame.taking w take :: rest).countP (BufferFrame.holds index) =
      rest.countP (BufferFrame.holds index) +
        if take.ptr = .buffer index then 1 else 0 := by
  by_cases hptr : take.ptr = .buffer index
  · simp [BufferFrame.holds, hptr]
  · simp [BufferFrame.holds, hptr]

theorem getElem_allocate {library : Library} {layout : Layout} {index : ℕ}
    {buffer : Buffer} (hbuffer : state.buffers[index]? = some buffer) :
    (state.allocate library (some layout)).buffers[index]? = some buffer := by
  have hlt := (List.getElem?_eq_some_iff.mp hbuffer).1
  simp only [allocate]
  rw [List.getElem?_append_left hlt, hbuffer]

/-- The new buffer is unreleased, and nothing changes for the others. -/
theorem unreleased_allocate [LispCase] (hinv : state.OwnershipInvariant code)
    (library : Library) (layout : Layout) (other : Library) :
    ((state.allocate library (some layout)).unreleased other).card =
      (state.unreleased other).card + if other = library then 1 else 0 := by
  have hnew : state.releases state.buffers.length = 0 := by
    have hcounted := hinv.counted state.buffers.length
    rw [if_neg (Nat.lt_irrefl _)] at hcounted
    omega
  have hold : (Finset.range state.buffers.length).filter (fun index =>
      ((state.allocate library (some layout)).buffers[index]?.map
        Buffer.library) = some other ∧
        (state.allocate library (some layout)).releases index = 0) =
      state.unreleased other := by
    apply Finset.filter_congr
    intro index hindex
    have hlt : index < state.buffers.length := Finset.mem_range.mp hindex
    simp only [allocate, List.getElem?_append_left hlt]
    rfl
  have hlength : (state.allocate library (some layout)).buffers.length =
      state.buffers.length + 1 := by
    simp [allocate]
  have hlast : (state.allocate library
      (some layout)).buffers[state.buffers.length]? =
        some { library := library, layout := layout } := by
    simp [allocate]
  have hnotMem : state.buffers.length ∉ state.unreleased other := by
    simp [unreleased]
  rw [unreleased, hlength, Finset.range_add_one, Finset.filter_insert, hold]
  by_cases hother : other = library
  · subst hother
    rw [if_pos ⟨by rw [hlast]; rfl, hnew⟩, if_pos rfl,
      Finset.card_insert_of_notMem hnotMem]
  · rw [if_neg, if_neg hother, Nat.add_zero]
    rintro ⟨hlibrary, -⟩
    rw [hlast] at hlibrary
    exact hother (Option.some.inj hlibrary).symm

theorem afterTransfer [LispCase] (hinv : state.OwnershipInvariant code)
    {thread : Fin n} {w : CrateWrapper} {rest : List BufferFrame}
    (htop : state.threads thread = .inside w :: rest) (layout : Layout)
    (hsize : 0 < layout.size) :
    ((state.allocate w.fnPtr.library (some layout)).setFrames thread
      (.taking w ⟨.buffer state.buffers.length, layout.size, layout.align⟩ ::
        rest)).OwnershipInvariant code := by
  have hpublished : ∀ frame ∈ BufferFrame.inside w :: rest,
      frame.wrapper ∈ state.loader.published := by
    rw [← htop]
    exact hinv.frames thread
  constructor
  · exact hinv.loader
  · exact hinv.built
  · intro other frame hframe
    rcases mem_setFrames hframe with hnew | hold
    · rcases List.mem_cons.mp hnew with rfl | hrest
      · exact hpublished (.inside w) List.mem_cons_self
      · exact hpublished frame (List.mem_cons_of_mem _ hrest)
    · exact hinv.frames other frame hold
  · intro other w' take hframe
    have hkept : state.TakeSound w' take →
        (state.allocate w.fnPtr.library (some layout)).TakeSound w' take := by
      rintro (hempty | ⟨index, buffer, hptr, hbuffer, hmatch⟩)
      · exact .inl hempty
      · exact .inr ⟨index, buffer, hptr, getElem_allocate hbuffer, hmatch⟩
    rcases mem_setFrames hframe with hnew | hold
    · rcases List.mem_cons.mp hnew with heq | hrest
      · cases heq
        refine .inr ⟨state.buffers.length,
          { library := w.fnPtr.library, layout := layout }, rfl, ?_, rfl, rfl,
          rfl, hsize⟩
        simp [setFrames, allocate]
      · have hmem : BufferFrame.taking w' take ∈ state.threads thread := by
          rw [htop]
          exact List.mem_cons_of_mem _ hrest
        exact hkept (hinv.takes thread w' take hmem)
    · exact hkept (hinv.takes other w' take hold)
  · intro index
    have hcounted := hinv.counted index
    have hholders := holders_setFrames
      (state.allocate w.fnPtr.library (some layout)) thread
      (.taking w ⟨.buffer state.buffers.length, layout.size, layout.align⟩ ::
        rest) index
    have hthreads : (state.allocate w.fnPtr.library
        (some layout)).threads thread = .inside w :: rest := htop
    rw [hthreads, countP_inside, countP_taking] at hholders
    have hbefore : (state.allocate w.fnPtr.library
        (some layout)).holders index = state.holders index := rfl
    have hreleases : ((state.allocate w.fnPtr.library (some layout)).setFrames
        thread (.taking w ⟨.buffer state.buffers.length, layout.size,
          layout.align⟩ :: rest)).releases index = state.releases index := rfl
    have hlength : ((state.allocate w.fnPtr.library (some layout)).setFrames
        thread (.taking w ⟨.buffer state.buffers.length, layout.size,
          layout.align⟩ :: rest)).buffers.length =
        state.buffers.length + 1 := by
      simp [setFrames, allocate]
    rw [hreleases, hlength]
    rw [hbefore] at hholders
    simp only [OutPtr.buffer.injEq] at hholders
    split at hholders <;> split at hcounted <;> split <;> omega
  · intro call hcall
    obtain ⟨index, buffer, g, hptr, hbuffer, hrest⟩ := hinv.matched call hcall
    exact ⟨index, buffer, g, hptr, getElem_allocate hbuffer, hrest⟩
  · intro library
    have hcard := hinv.unreleased_allocate w.fnPtr.library layout library
    have hlive := hinv.live library
    have hsame : ((state.allocate w.fnPtr.library (some layout)).setFrames
        thread (.taking w ⟨.buffer state.buffers.length, layout.size,
          layout.align⟩ :: rest)).unreleased library =
        (state.allocate w.fnPtr.library (some layout)).unreleased library :=
      rfl
    rw [hsame, hcard]
    simp only [setFrames, allocate, Function.update_apply]
    split
    · rename_i hlibrary
      subst hlibrary
      omega
    · simpa using hlive

/-! ### Release -/

theorem releases_dealloc (call : Dealloc) (index : ℕ) :
    (state.dealloc call).releases index =
      state.releases index + if call.take.ptr = .buffer index then 1 else 0 := by
  by_cases hptr : call.take.ptr = .buffer index <;>
    simp [releases, dealloc, hptr]

/-- The buffer is no longer counted, and nothing changes for the others. -/
theorem unreleased_dealloc {call : Dealloc} {index : ℕ} {buffer : Buffer}
    (hptr : call.take.ptr = .buffer index)
    (hbuffer : state.buffers[index]? = some buffer)
    (hunreleased : state.releases index = 0) (library : Library) :
    ((state.dealloc call).unreleased library).card +
        (if library = buffer.library then 1 else 0) =
      (state.unreleased library).card := by
  have hsame : (state.dealloc call).unreleased library =
      (state.unreleased library).erase index := by
    ext other
    simp only [unreleased, Finset.mem_erase, Finset.mem_filter,
      Finset.mem_range, releases_dealloc, hptr, OutPtr.buffer.injEq]
    by_cases hother : index = other
    · simp [hother]
    · simp [dealloc, hother, Ne.symm hother]
  rw [hsame]
  by_cases hlibrary : library = buffer.library
  · have hlt := (List.getElem?_eq_some_iff.mp hbuffer).1
    have hmem : index ∈ state.unreleased library := by
      simp only [unreleased, Finset.mem_filter, Finset.mem_range]
      exact ⟨hlt, by rw [hbuffer, hlibrary]; rfl, hunreleased⟩
    rw [if_pos hlibrary, Finset.card_erase_add_one hmem]
  · have hnotMem : index ∉ state.unreleased library := by
      simp only [unreleased, Finset.mem_filter, hbuffer, Option.map_some,
        Option.some.injEq, not_and]
      exact fun _ heq => absurd heq.symm hlibrary
    rw [if_neg hlibrary, Finset.erase_eq_of_notMem hnotMem, Nat.add_zero]

theorem afterTaken [LispCase]
    (hinv : state.OwnershipInvariant code) {thread : Fin n}
    {w : CrateWrapper} {take : Take} {rest : List BufferFrame}
    (htop : state.threads thread = .taking w take :: rest) :
    ((state.callDeallocLayout w.ctx.deallocPtr take).setFrames thread
      rest).OwnershipInvariant code := by
  have hmem : BufferFrame.taking w take ∈ state.threads thread := by
    rw [htop]
    exact List.mem_cons_self
  have hpublished : ∀ frame ∈ rest,
      frame.wrapper ∈ state.loader.published := by
    intro frame hframe
    apply hinv.frames thread frame
    rw [htop]
    exact List.mem_cons_of_mem _ hframe
  have hrestTakes : ∀ w' take', .taking w' take' ∈ rest →
      state.TakeSound w' take' := by
    intro w' take' hframe
    apply hinv.takes thread w' take'
    rw [htop]
    exact List.mem_cons_of_mem _ hframe
  rcases hinv.takes thread w take hmem with
    ⟨hsize, hptr⟩ | ⟨index, buffer, hptr, hbuffer, hlibrary, hsize, halign, hpos⟩
  · -- an empty transfer
    have hcall : state.callDeallocLayout w.ctx.deallocPtr take = state := by
      rw [callDeallocLayout, if_neg (by omega)]
    rw [hcall]
    apply hinv.afterFrames thread hpublished hrestTakes
    intro other
    rw [htop, countP_taking, hptr, if_neg (by simp), Nat.add_zero]
  · have hcall : state.callDeallocLayout w.ctx.deallocPtr take =
        state.dealloc { fn := w.ctx.deallocPtr, take := take } := by
      rw [callDeallocLayout, if_pos hpos]
    rw [hcall]
    obtain ⟨g, hg, hborn, -⟩ := hinv.loader.published w
      (hinv.frames thread _ hmem)
    have hallocator : g.library = buffer.library := by
      rw [hlibrary, hborn.fnPtr]
    have hlt := (List.getElem?_eq_some_iff.mp hbuffer).1
    have hholds : 0 < state.holders index := by
      have hle := weight_le_sum
        (fun frames => frames.countP (BufferFrame.holds index))
        state.threads thread
      simp only [htop, countP_taking, hptr, if_true] at hle
      exact Nat.lt_of_lt_of_le (Nat.succ_pos _) hle
    have hunreleased : state.releases index = 0 := by
      have hcounted := hinv.counted index
      rw [if_pos hlt] at hcounted
      omega
    constructor
    · exact hinv.loader
    · exact hinv.built
    · intro other frame hframe
      rcases mem_setFrames hframe with hnew | hold
      · exact hpublished frame hnew
      · exact hinv.frames other frame hold
    · intro other w' take' hframe
      rcases mem_setFrames hframe with hnew | hold
      · exact hrestTakes w' take' hnew
      · exact hinv.takes other w' take' hold
    · intro other
      have hcounted := hinv.counted other
      have hholders := holders_setFrames
        (state.dealloc { fn := w.ctx.deallocPtr, take := take }) thread rest
        other
      have hthreads : (state.dealloc
          { fn := w.ctx.deallocPtr, take := take }).threads thread =
            .taking w take :: rest := htop
      rw [hthreads, countP_taking] at hholders
      have hreleases : (state.dealloc
          { fn := w.ctx.deallocPtr, take := take }).releases other = _ :=
        releases_dealloc
        { fn := w.ctx.deallocPtr, take := take } other
      have hbefore : (state.dealloc
          { fn := w.ctx.deallocPtr, take := take }).holders other =
            state.holders other := rfl
      have hafter : ((state.dealloc { fn := w.ctx.deallocPtr, take := take
          }).setFrames thread rest).releases other =
            (state.dealloc { fn := w.ctx.deallocPtr, take := take
              }).releases other := rfl
      have hbuffers : ((state.dealloc { fn := w.ctx.deallocPtr, take := take
          }).setFrames thread rest).buffers = state.buffers := rfl
      rw [hafter, hbuffers, hreleases, ← hcounted]
      rw [hbefore] at hholders
      simp only at hholders ⊢
      omega
    · intro call hmemCall
      rcases List.mem_append.mp hmemCall with hold | hnew
      · exact hinv.matched call hold
      · rw [List.mem_singleton.mp hnew]
        refine ⟨index, buffer, g, hptr, hbuffer, hg, hallocator, ?_, hsize,
          halign⟩
        rw [← hallocator]
        exact hborn.deallocPtr
    · intro library
      have hcard : ((state.dealloc
          { fn := w.ctx.deallocPtr, take := take }).unreleased library).card +
            _ = _ :=
        unreleased_dealloc hptr hbuffer hunreleased library
      have hlive := hinv.live library
      have hentry : w.ctx.deallocPtr.library = buffer.library := by
        rw [hborn.deallocPtr, hallocator]
      have hsame : ((state.dealloc { fn := w.ctx.deallocPtr, take := take
          }).setFrames thread rest).unreleased library =
            (state.dealloc { fn := w.ctx.deallocPtr, take := take
              }).unreleased library := rfl
      rw [hsame]
      simp only [setFrames, dealloc, hentry, if_neg hpos.ne',
        Function.update_apply] at hcard ⊢
      split
      · rename_i hthis
        subst hthis
        rw [if_pos rfl] at hcard
        omega
      · rename_i hthis
        rw [if_neg hthis] at hcard
        omega

/-! ### The loader -/

theorem afterLoader [LispCase] (hinv : state.OwnershipInvariant code)
    {action : LoaderAction} {loader : LoaderState}
    (hcondition : state.LoadsMacroBuilt code (.loader action))
    (houtcome : state.loader.Outcome action loader) :
    OwnershipInvariant code { state with loader := loader } := by
  constructor
  · exact hinv.loader.afterOutcome houtcome
  · intro g hg
    cases houtcome with
    | begun action host args restore counter registry commit hbegins
        hcommitted =>
        have hhost : host.MacroBuilt code state.loader.nextLibrary := by
          cases hbegins <;> exact hcondition
        rcases List.mem_append.mp hg with hold | hnew
        · exact hinv.built g hold
        · rw [List.mem_singleton.mp hnew]
          cases hcommitted with
          | committed opened prepared hadmitted hprepare =>
              obtain ⟨hdlopen, hmanifest⟩ := admitLoad_manifest hadmitted
              exact hhost _ _ hdlopen hmanifest
    | _ => exact hinv.built g hg
  · exact fun thread frame hframe =>
      houtcome.published_kept _ (hinv.frames thread frame hframe)
  · exact hinv.takes
  · exact hinv.counted
  · intro call hcall
    obtain ⟨index, buffer, g, hptr, hbuffer, hg, hrest⟩ :=
      hinv.matched call hcall
    exact ⟨index, buffer, g, hptr, hbuffer, houtcome.generations_kept g hg,
      hrest⟩
  · exact hinv.live

theorem afterReturnOk [LispCase] (hinv : state.OwnershipInvariant code)
    {thread : Fin n} {w : CrateWrapper} {rest : List BufferFrame}
    (htop : state.threads thread = .inside w :: rest)
    {layout : Option Layout} {take : Option Take}
    (hmatches : TakeMatches state.buffers.length layout take) :
    ((state.allocate w.fnPtr.library layout).setFrames thread
      (take.toList.map (.taking w) ++ rest)).OwnershipInvariant code := by
  have hpublished : ∀ frame ∈ BufferFrame.inside w :: rest,
      frame.wrapper ∈ state.loader.published := by
    rw [← htop]
    exact hinv.frames thread
  have hrestTakes : ∀ w' take', .taking w' take' ∈ rest →
      state.TakeSound w' take' := by
    intro w' take' hframe
    apply hinv.takes thread w' take'
    rw [htop]
    exact List.mem_cons_of_mem _ hframe
  cases hmatches with
  | none =>
      apply hinv.afterFrames thread
      · exact fun frame hframe =>
          hpublished frame (List.mem_cons_of_mem _ hframe)
      · exact hrestTakes
      · intro index
        rw [htop, countP_inside]
        rfl
  | empty align =>
      apply hinv.afterFrames thread
      · intro frame hframe
        rcases List.mem_cons.mp hframe with rfl | hrest
        · exact hpublished (.inside w) List.mem_cons_self
        · exact hpublished frame (List.mem_cons_of_mem _ hrest)
      · intro w' take' hframe
        rcases List.mem_cons.mp hframe with heq | hrest
        · cases heq
          exact .inl ⟨rfl, rfl⟩
        · exact hrestTakes w' take' hrest
      · intro index
        rw [htop, countP_inside]
        exact (countP_taking w _ rest index).trans (by simp)
  | buffer layout hsize => exact hinv.afterTransfer htop layout hsize

theorem afterStep [LispCase] {next : BufferState n} {action : BufferAction n}
    (hinv : state.OwnershipInvariant code)
    (hcondition : state.LoadsMacroBuilt code action)
    (hstep : state.step code action = some next) :
    next.OwnershipInvariant code := by
  have hkeep : ∀ {thread : Fin n} {frame : BufferFrame}
      {rest : List BufferFrame}, state.threads thread = frame :: rest →
        (∀ index, frame.holds index = false) →
        ∀ frames, (∀ other ∈ frames, other.wrapper = frame.wrapper) →
          (∀ other ∈ frames, ∀ index, other.holds index = false) →
          (∀ other ∈ frames, ∀ w take, other ≠ .taking w take) →
            (state.setFrames thread (frames ++ rest)).OwnershipInvariant
              code := by
    intro thread frame rest htop hholds frames hwrapper hnone hno
    have hpublished : ∀ other ∈ frame :: rest,
        other.wrapper ∈ state.loader.published := by
      rw [← htop]
      exact hinv.frames thread
    apply hinv.afterFrames thread
    · intro other hother
      rcases List.mem_append.mp hother with hnew | hrest
      · rw [hwrapper other hnew]
        exact hpublished frame List.mem_cons_self
      · exact hpublished other (List.mem_cons_of_mem _ hrest)
    · intro w take hother
      rcases List.mem_append.mp hother with hnew | hrest
      · exact absurd rfl (hno _ hnew w take)
      · apply hinv.takes thread w take
        rw [htop]
        exact List.mem_cons_of_mem _ hrest
    · intro index
      have hzero : frames.countP (BufferFrame.holds index) = 0 := by
        apply List.countP_eq_zero.mpr
        intro other hother
        simp [hnone other hother index]
      rw [htop, List.countP_append, hzero, List.countP_cons, hholds index]
      simp
  cases action with
  | loader action =>
      simp only [step] at hstep
      split at hstep
      · cases hstep
      · split at hstep
        · cases hstep
        · rename_i loader hloader
          cases hstep
          exact hinv.afterLoader hcondition
            (LoaderState.step_outcome hloader)
  | enter thread w =>
      simp only [step] at hstep
      split at hstep
      · rename_i hpublished
        cases hstep
        apply hinv.afterFrames thread
        · exact List.forall_mem_cons.mpr ⟨hpublished, hinv.frames thread⟩
        · intro w' take hframe
          rcases List.mem_cons.mp hframe with heq | hrest
          · cases heq
          · exact hinv.takes thread w' take hrest
        · intro index
          simp [BufferFrame.holds]
      · cases hstep
  | refuse thread =>
      simp only [step] at hstep
      split at hstep
      · rename_i htop
        cases hstep
        exact hkeep htop (fun _ => rfl) [] (by simp) (by simp) (by simp)
      · cases hstep
  | invoke thread =>
      simp only [step] at hstep
      split at hstep
      · rename_i w rest htop
        cases hstep
        exact hkeep htop (fun _ => rfl) [.inside w] (by simp [BufferFrame.wrapper])
          (by simp [BufferFrame.holds]) (by simp)
      · cases hstep
  | returnOk thread result =>
      simp only [step] at hstep
      split at hstep
      · rename_i w rest htop
        split at hstep
        · cases hstep
        · rename_i objects layout htransfer
          obtain ⟨shim, hshim, htransfer⟩ := Option.bind_eq_some_iff.mp htransfer
          have hpublished : w ∈ state.loader.published := by
            apply hinv.frames thread (.inside w)
            rw [htop]
            exact List.mem_cons_self
          obtain ⟨g, hg, hborn, -⟩ := hinv.loader.published w hpublished
          obtain ⟨shim', classOf, hshim', hform⟩ :=
            hborn.result_hasForm (hinv.built g hg)
          cases hshim.symm.trans hshim'
          have hmatches := hform.taker_transfer htransfer
          have hnext := hinv.afterReturnOk htop hmatches
          split at hstep
          · rename_i htaker
            cases hstep
            rw [htaker] at hnext
            exact hnext
          · rename_i take htaker
            cases hstep
            rw [htaker] at hnext
            exact hnext
      · cases hstep
  | returnStatus thread =>
      simp only [step] at hstep
      split at hstep
      · rename_i w rest htop
        cases hstep
        exact hkeep htop (fun _ => rfl) [.signaling w]
          (by simp [BufferFrame.wrapper]) (by simp [BufferFrame.holds]) (by simp)
      · cases hstep
  | signaled thread =>
      simp only [step] at hstep
      split at hstep
      · rename_i htop
        cases hstep
        exact hkeep htop (fun _ => rfl) [] (by simp) (by simp) (by simp)
      · cases hstep
  | taken thread decoded =>
      simp only [step] at hstep
      split at hstep
      · rename_i htop
        cases hstep
        exact hinv.afterTaken htop
      · cases hstep

theorem ownership [LispCase] (hinv : state.OwnershipInvariant code) :
    state.Ownership := by
  have hbalanced : ∀ index < state.buffers.length,
      state.releases index + state.holders index = 1 := by
    intro index hlt
    rw [hinv.counted index, if_pos hlt]
  constructor
  · exact hbalanced
  · intro hsettled index hlt
    have hholders : state.holders index = 0 := by
      apply Finset.sum_eq_zero
      intro thread _
      apply List.countP_eq_zero.mpr
      intro frame hframe
      cases frame with
      | taking w take => exact absurd rfl (hsettled thread _ hframe w take)
      | _ => simp [BufferFrame.holds]
    have hone := hbalanced index hlt
    omega
  · exact hinv.matched
  · exact hinv.live

end OwnershipInvariant

theorem initial_ownershipInvariant [LispCase] (code : ForeignPtr → Option Shim)
    (registry : Registry) (hempty : ∀ name, registry.crates name = none) :
    (initial n registry).OwnershipInvariant code where
  loader := (ImageState.initial_provenanceInvariant (n := n) registry
    hempty).loader
  built := by simp [initial, LoaderState.initial]
  frames := by simp [initial]
  takes := by simp [initial]
  counted := by simp [initial, releases, holders]
  matched := by simp [initial]
  live := by simp [initial, unreleased]

end BufferState

/-- In every state of a run over libraries that were built with the macros,
from an image that has loaded no crate. -/
theorem buffer_ownership [LispCase] {n : ℕ} (code : ForeignPtr → Option Shim)
    (registry : Registry) (hempty : ∀ name, registry.crates name = none)
    {actions : List (BufferAction n)} {state : BufferState n}
    (hbuilt : (bufferSystem n code).RunMeets
      (BufferState.LoadsMacroBuilt code) (.initial n registry) actions)
    (hrun : (bufferSystem n code).run (.initial n registry) actions =
      some state) :
    state.Ownership := by
  have hinv := System.RunMeets.invariant
    (fun _ _ _ hcondition hinv hstep => hinv.afterStep hcondition hstep)
    hbuilt hrun (BufferState.initial_ownershipInvariant code registry hempty)
  exact hinv.ownership

/-! ## A crate that returns a vector -/

/-- `fn primes(limit: u32) -> Result<Vec<u32>, Error>`. -/
def primesFn : ExportedFn where
  doc := some "The primes up to LIMIT."
  rustName := "primes"
  lispName := "primes"
  symbol := "primes"
  params := [("limit", .scalar .u32)]
  result := .vecScalar .u32
  error := some "Error"
  call := .free "primes"

def primesHost : LoadHost :=
  { demoHost [] with
    probedFile := some "target/debug/libsieve.so"
    dlopen := .ok
      { exports :=
          ["sieve_rulisp_abi_version", "sieve_rulisp_manifest",
            "sieve_rulisp_last_error", "sieve_rulisp_dealloc",
            "sieve_rulisp_primes"]
        abiVersion := 1
        raw := ""
        form := .ok (.cons (.keyword "RULISP-MANIFEST") (.ofPlist
          [("SCHEMA", .integer 1), ("ABI", .integer 1),
            ("CRATE", .string "sieve"), ("PREFIX", .string "sieve_rulisp_"),
            ("FUNCTIONS", .ofList [(genMetaConst primesFn).datum])])) } }

def primesCode (ptr : ForeignPtr) : Option Shim :=
  if ptr.symbol = "sieve_rulisp_primes" then
    (genFn "sieve_rulisp_" primesFn).toOption
  else none

/-- The wrapper that generation `number` of the crate binds. -/
def primesWrapper (number serial : ℕ) : CrateWrapper where
  crate := "sieve"
  ctx :=
    { generation := number
      session := 0
      lastErrorPtr := ⟨⟨serial, 0⟩, "sieve_rulisp_last_error"⟩
      deallocPtr := ⟨⟨serial, 0⟩, "sieve_rulisp_dealloc"⟩
      freeTable := []
      errorConditions := [] }
  fnPtr := ⟨⟨serial, 0⟩, "sieve_rulisp_primes"⟩
  form :=
    { params := [("LIMIT", .scalar .uint32 false)]
      result := .vec Scalar.u32.vecElt
      qualified := "sieve:primes" }

/-- The crate is reloaded while the first generation computes its result. -/
def primesRun : List (BufferAction 1) :=
  let load := .loader (.load (.load "target/debug/libsieve.so" none none)
    primesHost)
  let published := List.replicate 4 (.loader (.publish none))
  (load :: published) ++ [.loader .sweep,
    .enter (Fin.last 0) (primesWrapper 1 1), .invoke (Fin.last 0)] ++
  (load :: published) ++ [.loader .sweep,
    .returnOk (Fin.last 0) (.slice [.int 2, .int 3, .int 5]),
    .taken (Fin.last 0) true]

theorem primesHost_macroBuilt (library : Library) :
    primesHost.MacroBuilt primesCode library := by
  intro image manifest himage hmanifest
  cases himage
  cases hmanifest
  refine ⟨[primesFn], rfl, fun f hf => ?_⟩
  cases List.mem_singleton.mp hf
  exact ⟨_, rfl, rfl⟩

theorem primesRun_loadsMacroBuilt :
    ∀ action ∈ primesRun, ∀ state : BufferState 1,
      state.LoadsMacroBuilt primesCode action := by
  intro action haction state
  simp only [primesRun, List.mem_append, List.mem_cons, List.mem_replicate,
    List.not_mem_nil, or_false] at haction
  rcases haction with (((rfl | ⟨-, rfl⟩) | hrest) | rfl | ⟨-, rfl⟩) | hrest
  · exact primesHost_macroBuilt _
  · trivial
  · rcases hrest with rfl | rfl | rfl <;> trivial
  · exact primesHost_macroBuilt _
  · trivial
  · rcases hrest with rfl | rfl | rfl <;> trivial

attribute [local instance] standardCase in
theorem buffer_ownership_primes :
    ∃ state, (bufferSystem 1 primesCode).run (.initial 1 .empty) primesRun =
        some state ∧
      state.Ownership ∧
      state.buffers = [⟨⟨1, 0⟩, ⟨12, 4⟩⟩] ∧
      state.deallocs =
        [⟨⟨⟨1, 0⟩, "sieve_rulisp_dealloc"⟩, ⟨.buffer 0, 12, 4⟩⟩] := by
  have hbuilt : (bufferSystem 1 primesCode).RunMeets
      (BufferState.LoadsMacroBuilt primesCode) (.initial 1 .empty)
      primesRun :=
    System.RunMeets.of_forall _ primesRun_loadsMacroBuilt _
  refine ⟨_, rfl, buffer_ownership primesCode .empty (fun _ => rfl) hbuilt
    rfl, ?_, ?_⟩
  · decide
  · decide

end Rulisp
