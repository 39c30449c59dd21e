import Rulisp.ExportMeta
import Rulisp.Utf8

/-!
# Generated shims

What `gen_fn` expands an exported function into: the C signature of the
`extern "C"` shim, the prelude that turns the slots into the arguments of the
user's function, and what the shim stores through its out-parameters.
-/

namespace Rulisp

/-! ## C types -/

/-- The Rust types that stand in shim signatures. -/
inductive CType
  | scalar (s : Scalar)
  | usize
  | cVoid
  | constPtr (pointee : CType)
  | mutPtr (pointee : CType)
  /-- `unsafe extern "C" fn(u64, ...) -> i32`, the arguments after the
  first. -/
  | callbackFn (params : List CType)
  deriving Repr

abbrev CType.u8 : CType := .scalar .u8
abbrev CType.u64 : CType := .scalar .u64

abbrev Slots := List (String × CType)

def Slots.types (slots : Slots) : List CType := slots.map (·.2)

/-- `cb_ffi_types`. -/
def cbFfiTypes (paramToks : List Token) : List CType :=
  paramToks.flatMap fun
    | .string => [.constPtr .u8, .usize]
    | .bool => [.u8]
    | .scalar s => [.scalar s]

/-- The argument types with which `CbArgsFor::invoke` calls the trampoline;
the trait is implemented for tuples of one element only. -/
def cbArgsInvoke : List Token → Option (List CType)
  | [.string] => some [.u64, .constPtr .u8, .usize]
  | [.bool] => some [.u64, .u8]
  | [.scalar s] => some [.u64, .scalar s]
  | _ => none

/-! ## Slots -/

/-- `extern_params` of one parameter. -/
def PTy.slots (ident : String) : PTy → Slots
  | .scalar s => [(ident, .scalar s)]
  | .bool => [(ident, .u8)]
  | .strRef => [(ident ++ "_ptr", .constPtr .u8), (ident ++ "_len", .usize)]
  | .bytesRef => [(ident ++ "_ptr", .constPtr .u8), (ident ++ "_len", .usize)]
  | .vecScalar s =>
      [(ident ++ "_ptr", .constPtr (.scalar s)), (ident ++ "_len", .usize)]
  | .optionScalar s => [(ident ++ "_present", .u8), (ident, .scalar s)]
  | .optionStr =>
      [(ident ++ "_present", .u8), (ident ++ "_ptr", .constPtr .u8),
        (ident ++ "_len", .usize)]
  | .optionBytes =>
      [(ident ++ "_present", .u8), (ident ++ "_ptr", .constPtr .u8),
        (ident ++ "_len", .usize)]
  | .handleRef _ => [(ident, .constPtr .cVoid)]
  | .callback paramToks =>
      [(ident, .callbackFn (cbFfiTypes paramToks)),
        (ident ++ "_userdata", .u64)]
  | .storedCallback paramToks =>
      [(ident, .callbackFn (cbFfiTypes paramToks)),
        (ident ++ "_userdata", .u64)]

/-- `out_params`. -/
def RTy.outSlots : RTy → Slots
  | .unit => []
  | .scalar s => [("out", .mutPtr (.scalar s))]
  | .bool => [("out", .mutPtr .u8)]
  | .str => [("out_ptr", .mutPtr (.mutPtr .u8)), ("out_len", .mutPtr .usize)]
  | .bytes => [("out_ptr", .mutPtr (.mutPtr .u8)), ("out_len", .mutPtr .usize)]
  | .handle _ => [("out", .mutPtr (.mutPtr .cVoid))]
  | .vecScalar s =>
      [("out_ptr", .mutPtr (.mutPtr (.scalar s))), ("out_len", .mutPtr .usize)]
  | .optionScalar s => [("some_out", .mutPtr .u8), ("out", .mutPtr (.scalar s))]
  | .optionStr =>
      [("some_out", .mutPtr .u8), ("out_ptr", .mutPtr (.mutPtr .u8)),
        ("out_len", .mutPtr .usize)]
  | .optionBytes =>
      [("some_out", .mutPtr .u8), ("out_ptr", .mutPtr (.mutPtr .u8)),
        ("out_len", .mutPtr .usize)]

def PTy.isCallback : PTy → Bool
  | .callback _ => true
  | _ => false

def PTy.isHandleRef : PTy → Bool
  | .handleRef _ => true
  | _ => false

/-- The identifier that a parameter has in the shim. -/
def shimIdent (name : String) : String :=
  if name = "self" then "this" else name

/-- An expanded shim, less the body of the user's function. -/
structure Shim where
  ident : String
  params : List (String × PTy)
  externParams : Slots
  result : RTy
  outParams : Slots
  hasCallback : Bool
  error : Option String
  call : CallKind
  deriving Repr

/-- `gen_fn`; `pfx` is `crate_prefix()`. -/
def genFn (pfx : String) (f : ExportedFn) : Except String Shim :=
  let shim : Shim :=
    { ident := pfx ++ f.symbol
      params := f.params
      externParams := f.params.flatMap fun (name, pty) =>
        pty.slots (shimIdent name)
      result := f.result
      outParams := f.result.outSlots
      hasCallback := f.params.any (·.2.isCallback)
      error := f.error
      call := f.call }
  match f.call with
  | .method _ =>
      -- `self_expr` is set by a handle parameter of the name `self`
      if f.params.any fun (name, pty) => name = "self" && pty.isHandleRef then
        .ok shim
      else .error "rulisp: methods must take &self"
  | _ => .ok shim

theorem genFn_eq_ok {pfx : String} {f : ExportedFn} {shim : Shim}
    (hshim : genFn pfx f = .ok shim) :
    shim.params = f.params ∧ shim.result = f.result ∧
      shim.outParams = f.result.outSlots ∧
      shim.externParams = f.params.flatMap fun (name, pty) =>
        pty.slots (shimIdent name) := by
  unfold genFn at hshim
  split at hshim
  · split at hshim
    · cases hshim
      exact ⟨rfl, rfl, rfl, rfl⟩
    · cases hshim
  · cases hshim
    exact ⟨rfl, rfl, rfl, rfl⟩

/-! ## Values -/

/-- A value of a scalar type; floats are kept as their bits. -/
inductive ScalarValue
  | int (n : ℤ)
  | f32 (bits : UInt32)
  | f64 (bits : UInt64)
  deriving DecidableEq, Repr

/-- The name of a trampoline that the loader passes: its kind and the tokens
of its signature, as data. -/
inductive TrampolineRef
  | borrowed (params : Datum)
  | stored (params : Datum)
  deriving DecidableEq, Repr

/-- The content of an argument slot.  A pointer is kept with what it points
to. -/
inductive Wire
  | scalar (value : ScalarValue)
  | octets (contents : List UInt8)
  | elements (contents : List ScalarValue)
  | null
  | length (n : ℕ)
  | object (ptr : ℕ)
  | trampoline (ref : TrampolineRef)
  deriving DecidableEq, Repr

/-- The value is one of the Rust type. -/
def Scalar.holds : Scalar → ScalarValue → Bool
  | .i8, .int n => -128 ≤ n ∧ n ≤ 127
  | .i16, .int n => -32768 ≤ n ∧ n ≤ 32767
  | .i32, .int n => -2147483648 ≤ n ∧ n ≤ 2147483647
  | .i64, .int n => -9223372036854775808 ≤ n ∧ n ≤ 9223372036854775807
  | .u8, .int n => 0 ≤ n ∧ n ≤ 255
  | .u16, .int n => 0 ≤ n ∧ n ≤ 65535
  | .u32, .int n => 0 ≤ n ∧ n ≤ 4294967295
  | .u64, .int n => 0 ≤ n ∧ n ≤ 18446744073709551615
  | .f32, .f32 _ => true
  | .f64, .f64 _ => true
  | _, _ => false

inductive RustBase
  | scalar (value : ScalarValue)
  | str (value : String)
  | bytes (value : List UInt8)
  deriving DecidableEq, Repr

/-- An argument that the shim binds, or a success value that it stores. -/
inductive RustValue
  | unit
  | base (value : RustBase)
  | bool (value : Bool)
  | slice (elements : List ScalarValue)
  | handle (ptr : ℕ)
  | callback (ref : TrampolineRef) (userdata : ScalarValue)
  | storedCallback (ref : TrampolineRef) (id : ScalarValue)
  | option (value : Option RustBase)
  deriving DecidableEq, Repr

def Shim.statusInvalid : ℤ := 3

/-- `bytes_arg`; `none` where the slots do not hold a buffer. -/
def bytesArg : Wire → Wire → Option (List UInt8)
  | ptr, .length len =>
      if len = 0 then some []
      else
        match ptr with
        | .octets contents =>
            if len ≤ contents.length then some (contents.take len) else none
        | _ => none
  | _, _ => none

/-- `slice_arg`. -/
def sliceArg : Wire → Wire → Option (List ScalarValue)
  | ptr, .length len =>
      if len = 0 then some []
      else
        match ptr with
        | .elements contents =>
            if len ≤ contents.length then some (contents.take len) else none
        | _ => none
  | _, _ => none

/-- `str_arg`: an error status for bytes that are not UTF-8. -/
def strArg (ptr len : Wire) : Option (Except ℤ String) :=
  match bytesArg ptr len with
  | none => none
  | some bytes =>
      match Utf8.decode bytes with
      | some s => some (.ok s)
      | none => some (.error Shim.statusInvalid)

def presentFlag : Wire → Option Bool
  | .scalar (.int n) => some (n ≠ 0)
  | _ => none

/-- The prelude and the call argument of one parameter.  `none`: the slots
hold something else than their types say. -/
def PTy.bind : PTy → List Wire → Option (Except ℤ RustValue)
  | .scalar _, [.scalar value] => some (.ok (.base (.scalar value)))
  | .bool, [flag] => (presentFlag flag).map fun b => .ok (.bool b)
  | .strRef, [ptr, len] =>
      (strArg ptr len).map fun s => s.map fun s => .base (.str s)
  | .bytesRef, [ptr, len] =>
      (bytesArg ptr len).map fun bytes => .ok (.base (.bytes bytes))
  | .vecScalar _, [ptr, len] =>
      (sliceArg ptr len).map fun elements => .ok (.slice elements)
  | .optionScalar _, [present, .scalar value] =>
      (presentFlag present).map fun b =>
        .ok (.option (if b then some (.scalar value) else none))
  | .optionStr, [present, ptr, len] =>
      (presentFlag present).bind fun b =>
        if b then
          (strArg ptr len).map fun s => s.map fun s => .option (some (.str s))
        else some (.ok (.option none))
  | .optionBytes, [present, ptr, len] =>
      (presentFlag present).bind fun b =>
        if b then
          (bytesArg ptr len).map fun bytes => .ok (.option (some (.bytes bytes)))
        else some (.ok (.option none))
  | .handleRef _, [.object ptr] => some (.ok (.handle ptr))
  | .callback _, [.trampoline ref, .scalar userdata] =>
      some (.ok (.callback ref userdata))
  | .storedCallback _, [.trampoline ref, .scalar id] =>
      some (.ok (.storedCallback ref id))
  | _, _ => none

/-- The preludes of a shim, in order; the first refusal is the status. -/
def bindParams : List (String × PTy) → List Wire →
    Option (Except ℤ (List RustValue))
  | [], [] => some (.ok [])
  | [], _ :: _ => none
  | (name, pty) :: rest, wires =>
      let width := (pty.slots name).length
      (pty.bind (wires.take width)).bind fun
        | .error status => some (.error status)
        | .ok value =>
            (bindParams rest (wires.drop width)).map fun values =>
              values.map (value :: ·)

/-! ## Stores -/

/-- What an out-parameter's object holds after the call. -/
inductive Stored
  | scalar (value : ScalarValue)
  | octets (contents : List UInt8)
  | elements (contents : List ScalarValue)
  /-- The pointer of an empty transfer. -/
  | dangling
  | length (n : ℕ)
  | object (ptr : ℕ)
  /-- Nothing was stored. -/
  | untouched
  deriving DecidableEq, Repr

/-- `bytes_into_raw`. -/
def bytesIntoRaw (bytes : List UInt8) : List Stored :=
  if bytes = [] then [.dangling, .length 0]
  else [.octets bytes, .length bytes.length]

def stringIntoRaw (s : String) : List Stored :=
  bytesIntoRaw (Utf8.octetsOf s)

/-- `vec_into_raw`. -/
def vecIntoRaw (elements : List ScalarValue) : List Stored :=
  if elements = [] then [.dangling, .length 0]
  else [.elements elements, .length elements.length]

def boolStore (b : Bool) : Stored := .scalar (.int (if b then 1 else 0))

/-- `write_ok`; `none` where the value is not of the result type. -/
def RTy.store : RTy → RustValue → Option (List Stored)
  | .unit, .unit => some []
  | .scalar s, .base (.scalar value) =>
      if s.holds value then some [.scalar value] else none
  | .bool, .bool b => some [boolStore b]
  | .str, .base (.str s) => some (stringIntoRaw s)
  | .bytes, .base (.bytes octets) => some (bytesIntoRaw octets)
  | .handle _, .handle ptr => some [.object ptr]
  | .vecScalar s, .slice elements =>
      if elements.all s.holds then some (vecIntoRaw elements) else none
  | .optionScalar s, .option (some (.scalar value)) =>
      if s.holds value then some [boolStore true, .scalar value] else none
  | .optionScalar _, .option none => some [boolStore false, .untouched]
  | .optionStr, .option (some (.str s)) =>
      some (boolStore true :: stringIntoRaw s)
  | .optionStr, .option none =>
      some [boolStore false, .untouched, .untouched]
  | .optionBytes, .option (some (.bytes octets)) =>
      some (boolStore true :: bytesIntoRaw octets)
  | .optionBytes, .option none =>
      some [boolStore false, .untouched, .untouched]
  | _, _ => none

end Rulisp
