import Rulisp.LispImage
import Rulisp.WireAgreement

/-!
# Buffer transfer

The results that Rust hands over as buffers, over any run of loads, reloads
and calls.  `bytes_into_raw` and `vec_into_raw` allocate and count, the
wrapper's ok-form copies the buffer under an `unwind-protect` that gives it
back to the `dealloc` of the wrapper's own context.  Calls nest: a callback,
or a handler of a condition, may call wrappers from any frame.
-/

namespace Rulisp

open TransitionSystem

/-! ## What is transferred -/

/-- `size_of` and `align_of` on a 64-bit target. -/
def Scalar.sizeOf : Scalar → ℕ
  | .i8 | .u8 => 1
  | .i16 | .u16 => 2
  | .i32 | .u32 | .f32 => 4
  | .i64 | .u64 | .f64 => 8

def Scalar.alignOf (s : Scalar) : ℕ := s.sizeOf

structure Layout where
  size : ℕ
  align : ℕ
  deriving DecidableEq, Repr

/-- A pointer that an out-parameter may hold.  A buffer's is its index among
all transferred buffers. -/
inductive OutPtr
  | buffer (index : ℕ)
  | dangling
  /-- What the object held before the call. -/
  | garbage
  deriving DecidableEq, Repr

inductive OutObject
  | flag (set : Bool)
  | pointer (ptr : OutPtr)
  | length (n : ℕ)
  /-- A scalar, a handle, or nothing. -/
  | value
  | garbage
  deriving DecidableEq, Repr

/-- `bytes_into_raw` and `vec_into_raw` of `len` elements: the objects, and
the allocation if there is one. -/
def intoRaw (next len size align : ℕ) : List OutObject × Option Layout :=
  if len = 0 then ([.pointer .dangling, .length 0], none)
  else
    ([.pointer (.buffer next), .length len],
      some { size := len * size, align := align })

/-- The stores of a successful shim; `none` where the value is not of the
result type. -/
def RTy.transfer (next : ℕ) : RTy → RustValue →
    Option (List OutObject × Option Layout)
  | .unit, .unit => some ([], none)
  | .scalar _, .base (.scalar _) => some ([.value], none)
  | .bool, .bool _ => some ([.value], none)
  | .str, .base (.str s) => some (intoRaw next (Utf8.octetsOf s).length 1 1)
  | .bytes, .base (.bytes octets) => some (intoRaw next octets.length 1 1)
  | .handle _, .handle _ => some ([.value], none)
  | .vecScalar s, .slice elements =>
      some (intoRaw next elements.length s.sizeOf s.alignOf)
  | .optionScalar _, .option (some (.scalar _)) =>
      some ([.flag true, .value], none)
  | .optionScalar _, .option none => some ([.flag false, .garbage], none)
  | .optionStr, .option (some (.str s)) =>
      let (objects, layout) := intoRaw next (Utf8.octetsOf s).length 1 1
      some (.flag true :: objects, layout)
  | .optionStr, .option none => some ([.flag false, .garbage, .garbage], none)
  | .optionBytes, .option (some (.bytes octets)) =>
      let (objects, layout) := intoRaw next octets.length 1 1
      some (.flag true :: objects, layout)
  | .optionBytes, .option none => some ([.flag false, .garbage, .garbage], none)
  | _, _ => none

/-! ## What is released -/

/-- The arguments of `call-dealloc-layout` in the cleanup of a
`%take-...-result`. -/
structure Take where
  ptr : OutPtr
  size : ℕ
  align : ℕ
  deriving DecidableEq, Repr

/-- The pointer and the length that a taker is called with; objects of
another kind are read as garbage of any length. -/
def readBuffer : OutObject → OutObject → OutPtr × ℕ
  | .pointer ptr, .length len => (ptr, len)
  | _, _ => (.garbage, 1)

/-- The taker that the ok-form calls, if it calls one. -/
def ResultForm.taker : ResultForm → List OutObject → Option Take
  | .string, [ptr, len] | .bytes, [ptr, len] =>
      let (ptr, len) := readBuffer ptr len
      some { ptr, size := len, align := 1 }
  | .vec elt, [ptr, len] =>
      let (ptr, len) := readBuffer ptr len
      some { ptr, size := len * elt.size, align := elt.size }
  | .optionString, [present, ptr, len] | .optionBytes, [present, ptr, len] =>
      if present = .flag false then none
      else
        let (ptr, len) := readBuffer ptr len
        some { ptr, size := len, align := 1 }
  | _, _ => none

/-- A call of a `dealloc` entry. -/
structure Dealloc where
  fn : ForeignPtr
  take : Take
  deriving DecidableEq, Repr

/-! ## The system -/

/-- An allocation made for Lisp, and whose allocator made it. -/
structure Buffer where
  library : Library
  layout : Layout
  deriving DecidableEq, Repr

inductive BufferFrame
  /-- Checks and conversions of the arguments. -/
  | checking (wrapper : CrateWrapper)
  /-- In the export. -/
  | inside (wrapper : CrateWrapper)
  /-- `signal-crate-status`, which reads the borrowed last error. -/
  | signaling (wrapper : CrateWrapper)
  /-- The body of a taker's `unwind-protect`. -/
  | taking (wrapper : CrateWrapper) (take : Take)
  deriving DecidableEq, Repr

/-- `live` is `LIVE_ALLOCATIONS` of each library. -/
structure BufferState (n : ℕ) where
  loader : LoaderState
  threads : Fin n → List BufferFrame
  buffers : List Buffer
  live : Library → ℤ
  deallocs : List Dealloc

inductive BufferAction (n : ℕ)
  /-- A step of the loader other than the start of an image. -/
  | loader (action : LoaderAction)
  | enter (thread : Fin n) (wrapper : CrateWrapper)
  /-- An argument is refused. -/
  | refuse (thread : Fin n)
  | invoke (thread : Fin n)
  | returnOk (thread : Fin n) (result : RustValue)
  /-- An error, a panic or an invalid argument. -/
  | returnStatus (thread : Fin n)
  | signaled (thread : Fin n)
  /-- The copy is done, or it signaled and the frame unwinds. -/
  | taken (thread : Fin n) (decoded : Bool)

namespace BufferState

variable {n : ℕ}

def initial (n : ℕ) (registry : Registry) : BufferState n where
  loader := .initial registry
  threads := fun _ => []
  buffers := []
  live := fun _ => 0
  deallocs := []

def setFrames (state : BufferState n) (thread : Fin n)
    (frames : List BufferFrame) : BufferState n :=
  { state with threads := Function.update state.threads thread frames }

/-- `into_raw` of a library: `fetch_add` and the new allocation. -/
def allocate (state : BufferState n) (library : Library) :
    Option Layout → BufferState n
  | none => state
  | some layout =>
      { state with
        buffers := state.buffers ++ [{ library := library, layout := layout }]
        live := Function.update state.live library (state.live library + 1) }

/-- The `dealloc` entry of a library: `fetch_sub`, but not for size 0. -/
def dealloc (state : BufferState n) (call : Dealloc) : BufferState n :=
  let library := call.fn.library
  { state with
    live :=
      if call.take.size = 0 then state.live
      else Function.update state.live library (state.live library - 1)
    deallocs := state.deallocs ++ [call] }

/-- `call-dealloc-layout`. -/
def callDeallocLayout (state : BufferState n) (fn : ForeignPtr) (take : Take) :
    BufferState n :=
  if 0 < take.size then state.dealloc { fn, take } else state

/-- `code` is the shim at each entry point. -/
def step [LispCase] (code : ForeignPtr → Option Shim) (state : BufferState n) :
    BufferAction n → Option (BufferState n)
  | .loader action =>
      if action.endsThreads then none
      else
        match state.loader.step action with
        | none => none
        | some loader => some { state with loader := loader }
  | .enter thread wrapper =>
      if wrapper ∈ state.loader.published then
        some (state.setFrames thread
          (.checking wrapper :: state.threads thread))
      else none
  | .refuse thread =>
      match state.threads thread with
      | .checking _ :: rest => some (state.setFrames thread rest)
      | _ => none
  | .invoke thread =>
      match state.threads thread with
      | .checking wrapper :: rest =>
          some (state.setFrames thread (.inside wrapper :: rest))
      | _ => none
  | .returnOk thread result =>
      match state.threads thread with
      | .inside wrapper :: rest =>
          match (code wrapper.fnPtr).bind fun shim =>
            shim.result.transfer state.buffers.length result with
          | none => none
          | some (objects, layout) =>
              let transferred := state.allocate wrapper.fnPtr.library layout
              match wrapper.form.result.taker objects with
              | none => some (transferred.setFrames thread rest)
              | some take =>
                  some (transferred.setFrames thread
                    (.taking wrapper take :: rest))
      | _ => none
  | .returnStatus thread =>
      match state.threads thread with
      | .inside wrapper :: rest =>
          some (state.setFrames thread (.signaling wrapper :: rest))
      | _ => none
  | .signaled thread =>
      match state.threads thread with
      | .signaling _ :: rest => some (state.setFrames thread rest)
      | _ => none
  | .taken thread _ =>
      match state.threads thread with
      | .taking wrapper take :: rest =>
          some ((state.callDeallocLayout wrapper.ctx.deallocPtr take).setFrames
            thread rest)
      | _ => none

end BufferState

def bufferSystem [LispCase] (n : ℕ) (code : ForeignPtr → Option Shim) :
    System (BufferState n) (BufferAction n) where
  step := BufferState.step code

end Rulisp
