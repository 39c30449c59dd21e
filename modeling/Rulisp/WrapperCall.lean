import Mathlib.Algebra.Group.Int.Defs
import Rulisp.MacroShim
import Rulisp.WrapperForm

/-!
# The foreign call of a wrapper

What the compiled wrapper passes: the CFFI types of its foreign call, the
argument that each Lisp value becomes, and the value that is read from the
out-parameters of a successful call.
-/

namespace Rulisp

/-! ## Types -/

def ParamForm.foreignTypes : ParamForm → List CffiType
  | .string => [.pointer, .uintptr]
  | .bytes => [.pointer, .uintptr]
  | .optionString => [.uint8, .pointer, .uintptr]
  | .optionBytes => [.uint8, .pointer, .uintptr]
  | .optionScalar cffi _ => [.uint8, cffi]
  | .vec _ => [.pointer, .uintptr]
  | .handle _ _ => [.pointer]
  | .callback _ => [.pointer, .uint64]
  | .storedCallback _ => [.pointer, .uint64]
  | .scalar cffi _ => [cffi]

/-- The types of the objects allocated for the out-parameters. -/
def ResultForm.outObjects : ResultForm → List CffiType
  | .unit => []
  | .string => [.pointer, .uintptr]
  | .bytes => [.pointer, .uintptr]
  | .handle _ _ => [.pointer]
  | .bool => [.uint8]
  | .optionString => [.uint8, .pointer, .uintptr]
  | .optionBytes => [.uint8, .pointer, .uintptr]
  | .optionScalar cffi => [.uint8, cffi]
  | .vec _ => [.pointer, .uintptr]
  | .scalar cffi => [cffi]

/-- The argument types of the foreign call; out-parameters are pointers to
their objects. -/
def WrapperForm.foreignTypes (form : WrapperForm) : List CffiType :=
  form.params.flatMap (·.2.foreignTypes) ++
    form.result.outObjects.map fun _ => .pointer

/-- One parameter type of a trampoline. -/
def trampolineParam (ty : Datum) : LispResult (List CffiType) :=
  if ty = .keyword "STRING" then .ok [.pointer, .uintptr]
  else return [← scalarCffi ty]

/-- The argument types of `cffi:defcallback`; the first is the userdata. -/
def Trampoline.argTypes (trampoline : Trampoline) :
    LispResult (List CffiType) := do
  let params ← trampoline.params.mapcar trampolineParam
  return .uint64 :: params.flatten

def Trampoline.ref (trampoline : Trampoline) : TrampolineRef :=
  match trampoline.kind with
  | .borrowed => .borrowed trampoline.params
  | .stored => .stored trampoline.params

/-- The C type of a shim slot as CFFI calls it; a `void` is no argument. -/
def CType.cffi : CType → Option CffiType
  | .scalar .i8 => some .int8
  | .scalar .i16 => some .int16
  | .scalar .i32 => some .int32
  | .scalar .i64 => some .int64
  | .scalar .u8 => some .uint8
  | .scalar .u16 => some .uint16
  | .scalar .u32 => some .uint32
  | .scalar .u64 => some .uint64
  | .scalar .f32 => some .float
  | .scalar .f64 => some .double
  | .usize => some .uintptr
  | .cVoid => none
  | .constPtr _ => some .pointer
  | .mutPtr _ => some .pointer
  | .callbackFn _ => some .pointer

/-- What an out-parameter points to. -/
def CType.pointee : CType → Option CType
  | .mutPtr pointee => some pointee
  | _ => none

/-! ## Lisp values -/

/-- An element of a sequence, or an argument that is none. -/
inductive LispAtom
  | integer (n : ℤ)
  | single (bits : UInt32)
  | double (bits : UInt64)
  | character (code : ℕ)
  | other (id : ℕ)
  deriving DecidableEq, Repr

def LispEltType.holds : LispEltType → ScalarValue → Bool
  | .signedByte bits, .int n => -2 ^ (bits - 1) ≤ n ∧ n < 2 ^ (bits - 1)
  | .unsignedByte bits, .int n => 0 ≤ n ∧ n < 2 ^ bits
  | .singleFloat, .f32 _ => true
  | .doubleFloat, .f64 _ => true
  | _, _ => false

/-- A simple array of a specialized element type. -/
structure SpecializedVector where
  type : LispEltType
  elements : List ScalarValue
  holds : elements.all type.holds = true
  deriving DecidableEq, Repr

inductive LispValue
  | nil
  | t
  | atom (value : LispAtom)
  | string (codes : List ℕ)
  /-- A list that is not NIL, or a general vector. -/
  | sequence (elements : List LispAtom)
  | specialized (vector : SpecializedVector)
  | handle (ptr : ℕ)
  | token (id : ℕ)
  /-- No value at all. -/
  | novalue
  deriving DecidableEq, Repr

def ScalarValue.atom : ScalarValue → LispAtom
  | .int n => .integer n
  | .f32 bits => .single bits
  | .f64 bits => .double bits

/-- The elements of a sequence. -/
def LispValue.elements : LispValue → Option (List LispAtom)
  | .nil => some []
  | .string codes => some (codes.map .character)
  | .sequence elements => some elements
  | .specialized vector => some (vector.elements.map ScalarValue.atom)
  | _ => none

/-- What the hosts and Babel answer. -/
structure WireHost where
  /-- `(coerce x 'single-float)`. -/
  toSingle : LispAtom → Option UInt32
  toDouble : LispAtom → Option UInt64
  /-- `babel:string-to-octets`. -/
  stringToOctets : List ℕ → Option (List UInt8)
  octetsToString : List UInt8 → Option (List ℕ)

/-- What is relied on: a float is coerced to its own type as it is, and Babel
encodes distinct strings differently and strings of Unicode scalar values in
UTF-8, which it reads back. -/
structure WireHost.Lawful (host : WireHost) : Prop where
  toSingle_single : ∀ bits, host.toSingle (.single bits) = some bits
  toDouble_double : ∀ bits, host.toDouble (.double bits) = some bits
  stringToOctets_utf8 : ∀ s,
    host.stringToOctets (Utf8.codesOf s) = some (Utf8.octetsOf s)
  stringToOctets_injective : ∀ codes codes' octets,
    host.stringToOctets codes = some octets →
      host.stringToOctets codes' = some octets → codes = codes'
  octetsToString_utf8 : ∀ s,
    host.octetsToString (Utf8.octetsOf s) = some (Utf8.codesOf s)

def intRange : CffiType → Option (ℤ × ℤ)
  | .uint8 => some (0, 255)
  | .int8 => some (-128, 127)
  | .int16 => some (-32768, 32767)
  | .int32 => some (-2147483648, 2147483647)
  | .int64 => some (-9223372036854775808, 9223372036854775807)
  | .uint16 => some (0, 65535)
  | .uint32 => some (0, 4294967295)
  | .uint64 => some (0, 18446744073709551615)
  | _ => none

/-- A Lisp object as a foreign value of the type, where the host accepts
it. -/
def toForeign (cffi : CffiType) (atom : LispAtom) : Option ScalarValue :=
  match cffi, atom with
  | .float, .single bits => some (.f32 bits)
  | .double, .double bits => some (.f64 bits)
  | cffi, .integer n =>
      match intRange cffi with
      | some (low, high) => if low ≤ n ∧ n ≤ high then some (.int n) else none
      | none => none
  | _, _ => none

/-! ## Arguments -/

section Arguments

variable (host : WireHost)

def LispAtom.octet : LispAtom → Option UInt8
  | .integer n => if 0 ≤ n ∧ n ≤ 255 then some (UInt8.ofNat n.toNat) else none
  | _ => none

/-- The octets that `call-with-bytes-arg` lends. -/
def LispValue.octets (data : LispValue) : Option (List UInt8) :=
  data.elements.bind fun elements => elements.mapM LispAtom.octet

def lendOctets (octets : List UInt8) : List Wire :=
  [.octets octets, .length octets.length]

/-- The octets that `call-with-utf8-arg` lends. -/
def utf8Octets : LispValue → Option (List UInt8)
  | .string codes =>
      -- `%ascii-octets`
      match Utf8.asciiOctets codes with
      | some octets => some octets
      | none => host.stringToOctets codes
  | _ => none

def Coercer.apply (coercer : Coercer) (atom : LispAtom) : Option LispAtom :=
  match coercer with
  | .identity => some atom
  | .toSingleFloat => (host.toSingle atom).map .single
  | .toDoubleFloat => (host.toDouble atom).map .double

/-- The elements that `call-with-vec-arg` lends: a specialized vector of the
very type is pinned, anything else is copied element by element. -/
def vecElements (elt : VecEltInfo) (data : LispValue) :
    Option (List ScalarValue) :=
  let copied := data.elements.bind fun elements =>
    elements.mapM fun x =>
      (elt.coercer.apply host x).bind (toForeign elt.cffi)
  match data with
  | .specialized vector =>
      if vector.type = elt.lispType ∧ vector.elements ≠ [] then
        some vector.elements
      else copied
  | _ => copied

def lendElements (elements : List ScalarValue) : List Wire :=
  [.elements elements, .length elements.length]

def Placeholder.value : Placeholder → LispAtom
  | .zero => .integer 0
  | .singleZero => .single 0
  | .doubleZero => .double 0

def flag (b : Bool) : Wire := .scalar (.int (if b then 1 else 0))

def LispValue.asAtom : LispValue → Option LispAtom
  | .atom value => some value
  | _ => none

/-- The arguments that one Lisp value becomes; `none` where the Lisp side
refuses it.  The class gate of a handle is not repeated here. -/
def ParamForm.pass (form : ParamForm) (value : LispValue) :
    Option (List Wire) :=
  match form with
  | .string => (utf8Octets host value).map lendOctets
  | .bytes => value.octets.map lendOctets
  | .optionString =>
      if value = .nil then some [flag false, .null, .length 0]
      else (utf8Octets host value).map fun octets =>
        flag true :: lendOctets octets
  | .optionBytes =>
      if value = .nil then some [flag false, .null, .length 0]
      else value.octets.map fun octets => flag true :: lendOctets octets
  | .optionScalar cffi placeholder =>
      if value = .nil then
        (toForeign cffi placeholder.value).map fun v => [flag false, .scalar v]
      else
        value.asAtom.bind fun atom =>
          (toForeign cffi atom).map fun v => [flag true, .scalar v]
  | .vec elt => (vecElements host elt value).map lendElements
  | .handle _ _ =>
      match value with
      | .handle ptr => some [.object ptr]
      | _ => none
  | .callback trampoline =>
      -- any value; it is bound to `*live-callback*`
      some [.trampoline trampoline.ref, .scalar (.int 0)]
  | .storedCallback trampoline =>
      match value with
      | .token id => some [.trampoline trampoline.ref, .scalar (.int id)]
      | _ => none
  | .scalar cffi isBool =>
      if isBool then some [flag (value ≠ .nil)]
      else
        value.asAtom.bind fun atom =>
          (toForeign cffi atom).map fun v => [.scalar v]

/-- The arguments of the foreign call, before the out-parameters. -/
def passParams : List (String × ParamForm) → List LispValue →
    Option (List Wire)
  | [], [] => some []
  | (_, form) :: forms, value :: values =>
      (form.pass host value).bind fun wires =>
        (passParams forms values).map (wires ++ ·)
  | _, _ => none

/-! ## Results -/

/-- `foreign-octets`. -/
def foreignOctets : Stored → Stored → Option (List UInt8)
  | ptr, .length len =>
      if len = 0 then some []
      else
        match ptr with
        | .octets contents => some (contents.take len)
        | _ => none
  | _, _ => none

/-- `foreign-utf8`. -/
def foreignUtf8 (ptr len : Stored) : Option LispValue :=
  (foreignOctets ptr len).bind fun octets =>
    -- `%octets-to-ascii-string`
    match Utf8.asciiCodes octets with
    | some codes => some (.string codes)
    | none => (host.octetsToString octets).map .string

/-- An array of the element type, where the host can make it. -/
def makeArray (type : LispEltType) (elements : List ScalarValue) :
    Option LispValue :=
  if holds : elements.all type.holds = true then
    some (.specialized { type, elements, holds })
  else none

def octetVector (octets : List UInt8) : Option LispValue :=
  makeArray (.unsignedByte 8) (octets.map fun octet => .int octet.toNat)

/-- The copy that `%take-vec-result` makes. -/
def foreignElements (lispType : LispEltType) : Stored → Stored →
    Option LispValue
  | ptr, .length len =>
      if len = 0 then makeArray lispType []
      else
        match ptr with
        | .elements contents => makeArray lispType (contents.take len)
        | _ => none
  | _, _ => none

/-- `(plusp (cffi:mem-ref object :uint8))`. -/
def storedFlag : Stored → Option Bool
  | .scalar (.int n) => some (0 < n)
  | _ => none

def Stored.scalarValue : Stored → Option LispValue
  | .scalar value => some (.atom value.atom)
  | _ => none

/-- The ok-form of a wrapper, on what the objects hold.  The cell that a
handle result is put into is left out. -/
def ResultForm.take (form : ResultForm) (objects : List Stored) :
    Option LispValue :=
  match form, objects with
  | .unit, [] => some .novalue
  | .string, [ptr, len] => foreignUtf8 host ptr len
  | .bytes, [ptr, len] => (foreignOctets ptr len).bind octetVector
  | .handle _ _, [.object ptr] => some (.handle ptr)
  | .bool, [object] =>
      (storedFlag object).map fun b => if b then .t else .nil
  | .optionString, [present, ptr, len] =>
      (storedFlag present).bind fun b =>
        if b then foreignUtf8 host ptr len else some .nil
  | .optionBytes, [present, ptr, len] =>
      (storedFlag present).bind fun b =>
        if b then (foreignOctets ptr len).bind octetVector else some .nil
  | .optionScalar _, [present, object] =>
      (storedFlag present).bind fun b =>
        if b then object.scalarValue else some .nil
  | .vec elt, [ptr, len] => foreignElements elt.lispType ptr len
  | .scalar _, [object] => object.scalarValue
  | _, _ => none

end Arguments

end Rulisp
