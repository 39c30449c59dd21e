import Mathlib.Data.List.Forall2
import Rulisp.WrapperCall

/-!
# Wire agreement of macro and loader

The macro and the loader expand one signature independently, the loader from
the manifest entry.  Here the two expansions are compared: the C types slot
by slot, callbacks included, and the values that cross in both directions.
-/

namespace Rulisp

/-! ## The loader's reading of a signature -/

section Forms

variable {classOf : Datum → LispResult Symbol}

def Scalar.cffi : Scalar → CffiType
  | .i8 => .int8
  | .i16 => .int16
  | .i32 => .int32
  | .i64 => .int64
  | .u8 => .uint8
  | .u16 => .uint16
  | .u32 => .uint32
  | .u64 => .uint64
  | .f32 => .float
  | .f64 => .double

def Token.cffi : Token → CffiType
  | .scalar s => s.cffi
  | .bool => .uint8
  | .string => .pointer

def Scalar.vecElt : Scalar → VecEltInfo
  | .i8 => ⟨.int8, 1, .signedByte 8, .identity⟩
  | .i16 => ⟨.int16, 2, .signedByte 16, .identity⟩
  | .i32 => ⟨.int32, 4, .signedByte 32, .identity⟩
  | .i64 => ⟨.int64, 8, .signedByte 64, .identity⟩
  | .u8 => ⟨.uint8, 1, .unsignedByte 8, .identity⟩
  | .u16 => ⟨.uint16, 2, .unsignedByte 16, .identity⟩
  | .u32 => ⟨.uint32, 4, .unsignedByte 32, .identity⟩
  | .u64 => ⟨.uint64, 8, .unsignedByte 64, .identity⟩
  | .f32 => ⟨.float, 4, .singleFloat, .toSingleFloat⟩
  | .f64 => ⟨.double, 8, .doubleFloat, .toDoubleFloat⟩

/-- The form of a parameter type of the vocabulary. -/
inductive PTy.HasForm (classOf : Datum → LispResult Symbol) :
    PTy → ParamForm → Prop
  | scalar (s : Scalar) : HasForm classOf (.scalar s) (.scalar s.cffi false)
  | bool : HasForm classOf .bool (.scalar .uint8 true)
  | strRef : HasForm classOf .strRef .string
  | bytesRef : HasForm classOf .bytesRef .bytes
  | handleRef (rustName : String) (cls : Symbol)
      (hclass : classOf (.string rustName) = .ok cls) :
      HasForm classOf (.handleRef rustName) (.handle (.string rustName) cls)
  | callback (toks : List Token) :
      HasForm classOf (.callback toks)
        (.callback
          { kind := .borrowed
            params := .ofList (toks.map Token.datum)
            result := .keyword "UNIT" })
  | storedCallback (toks : List Token) :
      HasForm classOf (.storedCallback toks)
        (.storedCallback
          { kind := .stored
            params := .ofList (toks.map Token.datum)
            result := .keyword "UNIT" })
  | optionScalar (s : Scalar) :
      HasForm classOf (.optionScalar s)
        (.optionScalar s.cffi (scalarPlaceholder (Token.scalar s).datum))
  | optionStr : HasForm classOf .optionStr .optionString
  | optionBytes : HasForm classOf .optionBytes .optionBytes
  | vecScalar (s : Scalar) : HasForm classOf (.vecScalar s) (.vec s.vecElt)

inductive RTy.HasForm (classOf : Datum → LispResult Symbol) :
    RTy → ResultForm → Prop
  | unit : HasForm classOf .unit .unit
  | scalar (s : Scalar) : HasForm classOf (.scalar s) (.scalar s.cffi)
  | bool : HasForm classOf .bool .bool
  | str : HasForm classOf .str .string
  | bytes : HasForm classOf .bytes .bytes
  | handle (rustName : String) (cls : Symbol)
      (hclass : classOf (.string rustName) = .ok cls) :
      HasForm classOf (.handle rustName) (.handle (.string rustName) cls)
  | optionScalar (s : Scalar) :
      HasForm classOf (.optionScalar s) (.optionScalar s.cffi)
  | optionStr : HasForm classOf .optionStr .optionString
  | optionBytes : HasForm classOf .optionBytes .optionBytes
  | vecScalar (s : Scalar) : HasForm classOf (.vecScalar s) (.vec s.vecElt)

theorem Token.accepted (tok : Token) :
    tok.datum = .keyword "STRING" ∨ tok.datum.assocScalar ≠ none := by
  rcases tok with s | _ | _
  · right
    cases s <;> decide
  · right
    decide
  · exact .inl rfl

/-- The plist of a callback type of the vocabulary. -/
def callbackPlist (toks : List Token) : Datum :=
  .ofPlist
    [("PARAMS", .ofList (toks.map Token.datum)), ("RESULT", .keyword "UNIT")]

theorem destructureCallback_tokens (toks : List Token) :
    destructureCallback (callbackPlist toks) =
      .ok (.ofList (toks.map Token.datum), .keyword "UNIT") := by
  simp [destructureCallback, callbackPlist, Datum.lookup, Datum.ofPlist,
    Datum.indicators, Datum.properPlist]

theorem dolist_tokens (toks : List Token) {f : Datum → LispResult Unit}
    (hf : ∀ tok : Token, f tok.datum = .ok ()) :
    (Datum.ofList (toks.map Token.datum)).dolist f = .ok () := by
  induction toks with
  | nil => rfl
  | cons tok rest ih =>
      simp only [List.map_cons, Datum.ofList, Datum.dolist, hf]
      exact ih

theorem checkCallbackShape_tokens (tag : Datum) (toks : List Token) :
    checkCallbackShape (.cons tag (callbackPlist toks)) =
      .ok (.ofList (toks.map Token.datum), .keyword "UNIT") := by
  have hparams : (Datum.ofList (toks.map Token.datum)).dolist (fun p =>
      errorUnless (p = .keyword "STRING" ∨ p.assocScalar ≠ none)
        (.manifestError
          [.text "unsupported callback param type ", .printed p])) = .ok () :=
    dolist_tokens toks fun tok => errorUnless_eq_ok.mpr tok.accepted
  apply LispResult.bind_eq_ok.mpr
  refine ⟨callbackPlist toks, rfl, LispResult.bind_eq_ok.mpr ?_⟩
  refine ⟨_, destructureCallback_tokens toks, LispResult.bind_eq_ok.mpr ?_⟩
  exact ⟨(), errorUnless_eq_ok.mpr rfl,
    LispResult.bind_eq_ok.mpr ⟨(), hparams, rfl⟩⟩

theorem PTy.hasForm {pty : PTy} {form : ParamForm}
    (hform : paramForm classOf pty.meta.datum = .ok form) :
    pty.HasForm classOf form := by
  cases pty with
  | scalar s =>
      have hexpected : paramForm classOf (PTy.scalar s).meta.datum =
          .ok (.scalar s.cffi false) := by
        cases s <;> rfl
      cases hexpected.symm.trans hform
      exact .scalar s
  | bool =>
      cases hform
      exact .bool
  | strRef =>
      cases hform
      exact .strRef
  | bytesRef =>
      cases hform
      exact .bytesRef
  | handleRef rustName =>
      have hexpected : paramForm classOf (PTy.handleRef rustName).meta.datum =
          (do
            let cls ← classOf (.string rustName)
            return .handle (.string rustName) cls) :=
        rfl
      rw [hexpected] at hform
      obtain ⟨cls, hclass, hform⟩ := LispResult.bind_eq_ok.mp hform
      cases hform
      exact .handleRef rustName cls hclass
  | callback toks =>
      have hexpected : paramForm classOf (PTy.callback toks).meta.datum =
          (do
            let trampoline ← ensureTrampoline .borrowed
              (.cons (.keyword "CALLBACK") (callbackPlist toks))
            return .callback trampoline) :=
        rfl
      simp only [ensureTrampoline, checkCallbackShape_tokens] at hexpected
      cases hexpected.symm.trans hform
      exact .callback toks
  | storedCallback toks =>
      have hexpected : paramForm classOf (PTy.storedCallback toks).meta.datum =
          (do
            let trampoline ← ensureTrampoline .stored
              (.cons (.keyword "STORED-CALLBACK") (callbackPlist toks))
            return .storedCallback trampoline) :=
        rfl
      simp only [ensureTrampoline, checkCallbackShape_tokens] at hexpected
      cases hexpected.symm.trans hform
      exact .storedCallback toks
  | optionScalar s =>
      have hexpected : paramForm classOf (PTy.optionScalar s).meta.datum =
          .ok (.optionScalar s.cffi
            (scalarPlaceholder (Token.scalar s).datum)) := by
        cases s <;> rfl
      cases hexpected.symm.trans hform
      exact .optionScalar s
  | optionStr =>
      cases hform
      exact .optionStr
  | optionBytes =>
      cases hform
      exact .optionBytes
  | vecScalar s =>
      have hexpected : paramForm classOf (PTy.vecScalar s).meta.datum =
          .ok (.vec s.vecElt) := by
        cases s <;> rfl
      cases hexpected.symm.trans hform
      exact .vecScalar s

theorem RTy.hasForm {rty : RTy} {form : ResultForm}
    (hform : resultForm classOf rty.meta.datum = .ok form) :
    rty.HasForm classOf form := by
  cases rty with
  | scalar s =>
      have hexpected : resultForm classOf (RTy.scalar s).meta.datum =
          .ok (.scalar s.cffi) := by
        cases s <;> rfl
      cases hexpected.symm.trans hform
      exact .scalar s
  | handle rustName =>
      have hexpected : resultForm classOf (RTy.handle rustName).meta.datum =
          (do
            let cls ← classOf (.string rustName)
            return .handle (.string rustName) cls) :=
        rfl
      rw [hexpected] at hform
      obtain ⟨cls, hclass, hform⟩ := LispResult.bind_eq_ok.mp hform
      cases hform
      exact .handle rustName cls hclass
  | optionScalar s =>
      have hexpected : resultForm classOf (RTy.optionScalar s).meta.datum =
          .ok (.optionScalar s.cffi) := by
        cases s <;> rfl
      cases hexpected.symm.trans hform
      exact .optionScalar s
  | vecScalar s =>
      have hexpected : resultForm classOf (RTy.vecScalar s).meta.datum =
          .ok (.vec s.vecElt) := by
        cases s <;> rfl
      cases hexpected.symm.trans hform
      exact .vecScalar s
  | unit | bool | str | bytes | optionStr | optionBytes =>
      cases hform
      constructor

end Forms

/-! ## C types -/

section Types

variable {classOf : Datum → LispResult Symbol}

theorem Scalar.cffi_scalar (s : Scalar) :
    (CType.scalar s).cffi = some s.cffi := by
  cases s <;> rfl

theorem PTy.HasForm.slotTypes {pty : PTy} {form : ParamForm}
    (hform : pty.HasForm classOf form) (ident : String) :
    (pty.slots ident).types.map CType.cffi = form.foreignTypes.map some := by
  cases hform with
  | scalar s => cases s <;> rfl
  | optionScalar s => cases s <;> rfl
  | _ => rfl

theorem RTy.HasForm.outTypes {rty : RTy} {form : ResultForm}
    (hform : rty.HasForm classOf form) :
    rty.outSlots.types.map CType.cffi =
      form.outObjects.map fun _ => some .pointer := by
  cases hform <;> rfl

/-- Each out-parameter points to an object of the type that the shim
stores. -/
theorem RTy.HasForm.outObjects {rty : RTy} {form : ResultForm}
    (hform : rty.HasForm classOf form) :
    rty.outSlots.types.map (fun type => type.pointee.bind CType.cffi) =
      form.outObjects.map some := by
  cases hform with
  | scalar s => cases s <;> rfl
  | optionScalar s => cases s <;> rfl
  | _ => rfl

/-- The C types of one callback parameter. -/
def Token.foreignTypes : Token → List CffiType
  | .string => [.pointer, .uintptr]
  | .bool => [.uint8]
  | .scalar s => [s.cffi]

theorem trampolineParam_token (tok : Token) :
    trampolineParam tok.datum = .ok tok.foreignTypes := by
  rcases tok with s | _ | _
  · cases s <;> decide
  · decide
  · decide

theorem cbFfiTypes_cffi (toks : List Token) :
    (cbFfiTypes toks).map CType.cffi =
      (toks.flatMap Token.foreignTypes).map some := by
  induction toks with
  | nil => rfl
  | cons tok rest ih =>
      have htok : (cbFfiTypes [tok]).map CType.cffi =
          tok.foreignTypes.map some := by
        rcases tok with s | _ | _
        · simp [cbFfiTypes, Token.foreignTypes, s.cffi_scalar]
        · rfl
        · rfl
      have hcons : cbFfiTypes (tok :: rest) =
          cbFfiTypes [tok] ++ cbFfiTypes rest := by
        simp [cbFfiTypes]
      rw [hcons, List.map_append, htok, ih, List.flatMap_cons,
        List.map_append]

/-- The trampoline of a callback type takes what the shim's slot says. -/
theorem argTypes_tokens (kind : TrampolineKind) (toks : List Token) :
    ∃ types,
      ({ kind := kind
         params := .ofList (toks.map Token.datum)
         result := .keyword "UNIT" } : Trampoline).argTypes = .ok types ∧
      (CType.u64 :: cbFfiTypes toks).map CType.cffi = types.map some := by
  refine ⟨.uint64 :: toks.flatMap Token.foreignTypes, ?_, ?_⟩
  · have hparams : (Datum.ofList (toks.map Token.datum)).mapcar
        trampolineParam = .ok (toks.map Token.foreignTypes) :=
      Datum.mapcar_ofList fun tok _ => trampolineParam_token tok
    simp only [Trampoline.argTypes, hparams, List.flatMap_def]
    rfl
  · rw [List.map_cons, List.map_cons, cbFfiTypes_cffi]
    rfl

/-- What the Rust side calls is what the slot declares. -/
theorem cbArgsInvoke_eq {toks : List Token} {signature : List CType}
    (hinvoke : cbArgsInvoke toks = some signature) :
    signature = .u64 :: cbFfiTypes toks := by
  unfold cbArgsInvoke at hinvoke
  split at hinvoke <;> cases hinvoke <;> rfl

/-- The trampoline that a callback parameter passes. -/
def ParamForm.trampoline : ParamForm → Option Trampoline
  | .callback trampoline => some trampoline
  | .storedCallback trampoline => some trampoline
  | _ => none

def PTy.callbackToks : PTy → Option (List Token)
  | .callback toks => some toks
  | .storedCallback toks => some toks
  | _ => none

/-- The callback that a parameter takes, in Rust and in Lisp. -/
structure CallbackAgreement (toks : List Token) (form : ParamForm) :
    Prop where
  trampoline : ∃ trampoline types, form.trampoline = some trampoline ∧
    trampoline.argTypes = .ok types ∧
      (CType.u64 :: cbFfiTypes toks).map CType.cffi = types.map some
  invoked : ∀ signature, cbArgsInvoke toks = some signature →
    signature = .u64 :: cbFfiTypes toks

theorem PTy.HasForm.callbackAgreement {pty : PTy} {form : ParamForm}
    (hform : pty.HasForm classOf form) {toks : List Token}
    (htoks : pty.callbackToks = some toks) : CallbackAgreement toks form := by
  refine ⟨?_, fun signature hinvoke => cbArgsInvoke_eq hinvoke⟩
  cases hform with
  | callback found =>
      cases htoks
      obtain ⟨types, htypes, hagree⟩ := argTypes_tokens .borrowed toks
      exact ⟨_, types, rfl, htypes, hagree⟩
  | storedCallback found =>
      cases htoks
      obtain ⟨types, htypes, hagree⟩ := argTypes_tokens .stored toks
      exact ⟨_, types, rfl, htypes, hagree⟩
  | _ => cases htoks

end Types

/-! ## Values -/

/-- An element of a sequence and the value that it is coerced to. -/
def Scalar.EncodesElement (host : WireHost) :
    Scalar → LispAtom → ScalarValue → Prop
  | .f32, atom, value =>
      ∃ bits, host.toSingle atom = some bits ∧ value = .f32 bits
  | .f64, atom, value =>
      ∃ bits, host.toDouble atom = some bits ∧ value = .f64 bits
  | s, atom, value => atom = value.atom ∧ s.holds value = true

/-- The value of a Rust parameter that encodes a Lisp argument. -/
inductive PTy.Encodes (host : WireHost) : PTy → LispValue → RustValue → Prop
  | scalar (s : Scalar) (value : ScalarValue) (hholds : s.holds value = true) :
      Encodes host (.scalar s) (.atom value.atom) (.base (.scalar value))
  | bool (value : LispValue) :
      Encodes host .bool value (.bool (value ≠ .nil))
  | str (s : String) :
      Encodes host .strRef (.string (Utf8.codesOf s)) (.base (.str s))
  | bytes (value : LispValue) (octets : List UInt8)
      (helements : value.elements =
        some (octets.map fun octet => .integer octet.toNat)) :
      Encodes host .bytesRef value (.base (.bytes octets))
  | slice (s : Scalar) (value : LispValue) (atoms : List LispAtom)
      (elements : List ScalarValue) (hatoms : value.elements = some atoms)
      (helements : List.Forall₂ (s.EncodesElement host) atoms elements) :
      Encodes host (.vecScalar s) value (.slice elements)
  | handle (rustName : String) (ptr : ℕ) :
      Encodes host (.handleRef rustName) (.handle ptr) (.handle ptr)
  | callback (toks : List Token) (value : LispValue) :
      Encodes host (.callback toks) value
        (.callback (.borrowed (.ofList (toks.map Token.datum))) (.int 0))
  | storedCallback (toks : List Token) (id : ℕ) :
      Encodes host (.storedCallback toks) (.token id)
        (.storedCallback (.stored (.ofList (toks.map Token.datum))) (.int id))
  | optionScalarNone (s : Scalar) :
      Encodes host (.optionScalar s) .nil (.option none)
  | optionStrNone : Encodes host .optionStr .nil (.option none)
  | optionBytesNone : Encodes host .optionBytes .nil (.option none)
  | optionScalarSome (s : Scalar) (value : LispValue) (base : RustBase)
      (hvalue : value ≠ .nil)
      (hbase : Encodes host (.scalar s) value (.base base)) :
      Encodes host (.optionScalar s) value (.option (some base))
  | optionStrSome (value : LispValue) (base : RustBase) (hvalue : value ≠ .nil)
      (hbase : Encodes host .strRef value (.base base)) :
      Encodes host .optionStr value (.option (some base))
  | optionBytesSome (value : LispValue) (base : RustBase)
      (hvalue : value ≠ .nil)
      (hbase : Encodes host .bytesRef value (.base base)) :
      Encodes host .optionBytes value (.option (some base))

/-- NIL for an option is `None`, and nothing else is. -/
theorem PTy.Encodes.none_iff {host : WireHost} {pty : PTy} {value : LispValue}
    {base : Option RustBase}
    (hencodes : pty.Encodes host value (.option base)) :
    base = none ↔ value = .nil := by
  cases hencodes with
  | optionScalarSome s value base hvalue hbase => simp [hvalue]
  | optionStrSome value base hvalue hbase => simp [hvalue]
  | optionBytesSome value base hvalue hbase => simp [hvalue]
  | _ => simp

/-- The Lisp value that a Rust result is returned as. -/
inductive RTy.Returns : RTy → RustValue → LispValue → Prop
  | unit : Returns .unit .unit .novalue
  | scalar (s : Scalar) (value : ScalarValue) :
      Returns (.scalar s) (.base (.scalar value)) (.atom value.atom)
  | bool (b : Bool) : Returns .bool (.bool b) (if b then .t else .nil)
  | str (s : String) :
      Returns .str (.base (.str s)) (.string (Utf8.codesOf s))
  | bytes (octets : List UInt8) (vector : SpecializedVector)
      (htype : vector.type = .unsignedByte 8)
      (helements : vector.elements =
        octets.map fun octet => .int octet.toNat) :
      Returns .bytes (.base (.bytes octets)) (.specialized vector)
  | handle (rustName : String) (ptr : ℕ) :
      Returns (.handle rustName) (.handle ptr) (.handle ptr)
  | slice (s : Scalar) (elements : List ScalarValue)
      (vector : SpecializedVector) (htype : vector.type = s.vecElt.lispType)
      (helements : vector.elements = elements) :
      Returns (.vecScalar s) (.slice elements) (.specialized vector)
  | optionScalarNone (s : Scalar) :
      Returns (.optionScalar s) (.option none) .nil
  | optionStrNone : Returns .optionStr (.option none) .nil
  | optionBytesNone : Returns .optionBytes (.option none) .nil
  | optionScalarSome (s : Scalar) (base : RustBase) (value : LispValue)
      (hbase : Returns (.scalar s) (.base base) value) :
      Returns (.optionScalar s) (.option (some base)) value
  | optionStrSome (base : RustBase) (value : LispValue)
      (hbase : Returns .str (.base base) value) :
      Returns .optionStr (.option (some base)) value
  | optionBytesSome (base : RustBase) (value : LispValue)
      (hbase : Returns .bytes (.base base) value) :
      Returns .optionBytes (.option (some base)) value

/-! ### Arguments -/

section Arguments

variable {host : WireHost}

theorem toForeign_scalar {s : Scalar} {atom : LispAtom} {value : ScalarValue}
    (hforeign : toForeign s.cffi atom = some value) :
    atom = value.atom ∧ s.holds value = true := by
  cases s <;> cases atom <;>
    simp only [Scalar.cffi, toForeign, intRange, Option.ite_none_right_eq_some,
      Option.some.injEq, reduceCtorEq] at hforeign
  all_goals first
    | subst hforeign
      exact ⟨rfl, rfl⟩
    | obtain ⟨hrange, rfl⟩ := hforeign
      exact ⟨rfl, decide_eq_true hrange⟩

theorem coerced_scalar {s : Scalar} {atom : LispAtom} {value : ScalarValue}
    (hcoerced : (s.vecElt.coercer.apply host atom).bind
      (toForeign s.vecElt.cffi) = some value) :
    s.EncodesElement host atom value := by
  obtain ⟨coerced, happly, hforeign⟩ := Option.bind_eq_some_iff.mp hcoerced
  cases s with
  | f32 =>
      obtain ⟨bits, hbits, rfl⟩ := Option.map_eq_some_iff.mp happly
      cases hforeign
      exact ⟨bits, hbits, rfl⟩
  | f64 =>
      obtain ⟨bits, hbits, rfl⟩ := Option.map_eq_some_iff.mp happly
      cases hforeign
      exact ⟨bits, hbits, rfl⟩
  | i8 | i16 | i32 | i64 | u8 | u16 | u32 | u64 =>
      cases happly
      exact toForeign_scalar hforeign

/-- An element of a pinned vector is lent as it is. -/
theorem pinned_scalar (hhost : host.Lawful) {s : Scalar} {value : ScalarValue}
    (hholds : s.vecElt.lispType.holds value = true) :
    s.EncodesElement host value.atom value := by
  cases s <;> cases value <;>
    simp only [Scalar.vecElt, LispEltType.holds, Bool.false_eq_true,
      decide_eq_true_eq] at hholds
  case f32.f32 bits => exact ⟨bits, hhost.toSingle_single bits, rfl⟩
  case f64.f64 bits => exact ⟨bits, hhost.toDouble_double bits, rfl⟩
  all_goals
    refine ⟨rfl, ?_⟩
    simp only [Scalar.holds, decide_eq_true_eq]
    omega

theorem mapM_forall₂ {α β : Type} {f : α → Option β} {xs : List α}
    {ys : List β} (hmap : xs.mapM f = some ys) :
    List.Forall₂ (fun x y => f x = some y) xs ys := by
  induction xs generalizing ys with
  | nil =>
      cases hmap
      exact .nil
  | cons x rest ih =>
      simp only [List.mapM_cons, Option.bind_eq_bind, Option.bind_eq_some_iff,
        Option.pure_def, Option.some.injEq] at hmap
      obtain ⟨y, hy, ys', hrest, rfl⟩ := hmap
      exact .cons hy (ih hrest)

theorem vecElements_encode (hhost : host.Lawful) {s : Scalar}
    {value : LispValue} {elements : List ScalarValue}
    (hlent : vecElements host s.vecElt value = some elements) :
    (PTy.vecScalar s).Encodes host value (.slice elements) := by
  have hcopied : ∀ {atoms : List LispAtom}, value.elements = some atoms →
      (atoms.mapM fun x => (s.vecElt.coercer.apply host x).bind
        (toForeign s.vecElt.cffi)) = some elements →
      (PTy.vecScalar s).Encodes host value (.slice elements) := by
    intro atoms hatoms hmap
    refine .slice s value atoms elements hatoms ?_
    exact List.Forall₂.imp (fun _ _ hcoerced => coerced_scalar hcoerced)
      (mapM_forall₂ hmap)
  unfold vecElements at hlent
  split at hlent
  · rename_i vector
    split at hlent
    · rename_i hpinned
      cases hlent
      refine .slice s _ _ _ rfl ?_
      have hholds := List.all_eq_true.mp vector.holds
      rw [hpinned.1] at hholds
      apply List.forall₂_map_left_iff.mpr
      apply List.forall₂_same.mpr
      exact fun element hmem => pinned_scalar hhost (hholds element hmem)
    · obtain ⟨atoms, hatoms, hmap⟩ := Option.bind_eq_some_iff.mp hlent
      exact hcopied hatoms hmap
  · obtain ⟨atoms, hatoms, hmap⟩ := Option.bind_eq_some_iff.mp hlent
    exact hcopied hatoms hmap

theorem octets_encode {value : LispValue} {octets : List UInt8}
    (hoctets : value.octets = some octets) :
    PTy.bytesRef.Encodes host value (.base (.bytes octets)) := by
  obtain ⟨atoms, hatoms, hmap⟩ := Option.bind_eq_some_iff.mp hoctets
  refine .bytes value octets ?_
  rw [hatoms]
  congr 1
  have hpairs := mapM_forall₂ hmap
  clear hmap hatoms hoctets
  induction hpairs with
  | nil => rfl
  | @cons atom octet atoms octets hfirst hrest ih =>
      have hatom : atom = .integer octet.toNat := by
        cases atom with
        | integer n =>
            simp only [LispAtom.octet] at hfirst
            split at hfirst
            · rename_i hrange
              cases hfirst
              have hlt : n.toNat < 256 := by omega
              simp only [UInt8.toNat_ofNat', Nat.mod_eq_of_lt hlt]
              congr 1
              omega
            · cases hfirst
        | _ => cases hfirst
      rw [List.map_cons, hatom, ih]

/-- What Rust makes of a lent string: the string, or a refusal. -/
theorem utf8Octets_decode (hhost : host.Lawful) {value : LispValue}
    {octets : List UInt8} (hlent : utf8Octets host value = some octets)
    {s : String} (hdecode : Utf8.decode octets = some s) :
    value = .string (Utf8.codesOf s) := by
  cases value with
  | string codes =>
      have hoctets := Utf8.octetsOf_of_decode hdecode
      simp only [utf8Octets] at hlent
      split at hlent
      · rename_i lent hascii
        cases hlent
        obtain ⟨s', hcodes, hsame⟩ := Utf8.asciiOctets_eq_some hascii
        rw [← hcodes, Utf8.octetsOf_injective (hsame.trans hoctets.symm)]
      · have hsame := hhost.stringToOctets_utf8 s
        rw [hoctets] at hsame
        rw [hhost.stringToOctets_injective _ _ _ hlent hsame]
  | _ => cases hlent

theorem utf8Octets_codesOf (hhost : host.Lawful) (s : String) :
    utf8Octets host (.string (Utf8.codesOf s)) = some (Utf8.octetsOf s) := by
  simp only [utf8Octets]
  split
  · rename_i octets hascii
    obtain ⟨s', hcodes, hoctets⟩ := Utf8.asciiOctets_eq_some hascii
    have hsame : s' = s := by
      have hmap : s'.toList = s.toList :=
        List.map_injective_iff.mpr
          (fun _ _ hchar => Char.ext (UInt32.toNat_inj.mp hchar)) hcodes
      exact String.toList_inj.mp hmap
    rw [← hoctets, hsame]
  · exact hhost.stringToOctets_utf8 s

/-- A string with a code point that is no Unicode scalar value. -/
def LispValue.NotUnicode (value : LispValue) : Prop :=
  ∃ codes, value = .string codes ∧ ∀ s, codes ≠ Utf8.codesOf s

/-- What the shim binds for a Lisp argument: its encoding, or for a string
that is not Unicode the invalid-argument status. -/
inductive Bound (host : WireHost) (pty : PTy) (value : LispValue) :
    Except ℤ RustValue → Prop
  | encoded (bound : RustValue) (hencodes : pty.Encodes host value bound) :
      Bound host pty value (.ok bound)
  | refused (hvalue : value.NotUnicode) :
      Bound host pty value (.error Shim.statusInvalid)

@[simp] theorem bytesArg_lent (octets : List UInt8) :
    bytesArg (.octets octets) (.length octets.length) = some octets := by
  unfold bytesArg
  cases octets <;> simp

@[simp] theorem sliceArg_lent (elements : List ScalarValue) :
    sliceArg (.elements elements) (.length elements.length) =
      some elements := by
  unfold sliceArg
  cases elements <;> simp

@[simp] theorem presentFlag_flag (b : Bool) :
    presentFlag (flag b) = some b := by
  cases b <;> rfl

theorem strArg_lent (hhost : host.Lawful) {value : LispValue}
    {octets : List UInt8} (hlent : utf8Octets host value = some octets) :
    (∃ s, strArg (.octets octets) (.length octets.length) = some (.ok s) ∧
      value = .string (Utf8.codesOf s)) ∨
    (strArg (.octets octets) (.length octets.length) =
        some (.error Shim.statusInvalid) ∧ value.NotUnicode) := by
  unfold strArg
  simp only [bytesArg_lent]
  cases hdecode : Utf8.decode octets with
  | some s => exact .inl ⟨s, rfl, utf8Octets_decode hhost hlent hdecode⟩
  | none =>
      right
      refine ⟨rfl, ?_⟩
      cases value with
      | string codes =>
          refine ⟨codes, rfl, fun s hcodes => ?_⟩
          rw [hcodes, utf8Octets_codesOf hhost] at hlent
          cases hlent
          rw [Utf8.decode_octetsOf] at hdecode
          cases hdecode
      | _ => cases hlent

theorem PTy.HasForm.bind_pass (hhost : host.Lawful)
    {classOf : Datum → LispResult Symbol} {pty : PTy} {form : ParamForm}
    (hform : pty.HasForm classOf form) (ident : String) {value : LispValue}
    {wires : List Wire} (hpass : form.pass host value = some wires) :
    wires.length = (pty.slots ident).length ∧
      ∃ bound, pty.bind wires = some bound ∧ Bound host pty value bound := by
  cases hform with
  | scalar s =>
      simp only [ParamForm.pass, Bool.false_eq_true, if_false] at hpass
      obtain ⟨atom, hatom, hforeign⟩ := Option.bind_eq_some_iff.mp hpass
      obtain ⟨found, hfound, rfl⟩ := Option.map_eq_some_iff.mp hforeign
      obtain ⟨rfl, hholds⟩ := toForeign_scalar hfound
      have hvalue : value = .atom found.atom := by
        cases value <;> cases hatom
        rfl
      subst hvalue
      exact ⟨rfl, _, rfl, .encoded _ (.scalar s found hholds)⟩
  | bool =>
      simp only [ParamForm.pass, if_true, Option.some.injEq] at hpass
      subst hpass
      refine ⟨rfl, _, ?_, .encoded _ (.bool value)⟩
      simp [PTy.bind]
  | strRef =>
      obtain ⟨octets, hlent, rfl⟩ := Option.map_eq_some_iff.mp hpass
      refine ⟨rfl, ?_⟩
      rcases strArg_lent hhost hlent with ⟨s, harg, rfl⟩ | ⟨harg, hvalue⟩
      · refine ⟨.ok (.base (.str s)), ?_, .encoded _ (.str s)⟩
        simp [PTy.bind, lendOctets, harg, Except.map]
      · refine ⟨.error Shim.statusInvalid, ?_, .refused hvalue⟩
        simp [PTy.bind, lendOctets, harg, Except.map]
  | bytesRef =>
      obtain ⟨octets, hlent, rfl⟩ := Option.map_eq_some_iff.mp hpass
      refine ⟨rfl, .ok (.base (.bytes octets)), ?_,
        .encoded _ (octets_encode hlent)⟩
      simp [PTy.bind, lendOctets]
  | vecScalar s =>
      obtain ⟨elements, hlent, rfl⟩ := Option.map_eq_some_iff.mp hpass
      refine ⟨rfl, .ok (.slice elements), ?_,
        .encoded _ (vecElements_encode hhost hlent)⟩
      simp [PTy.bind, lendElements]
  | handleRef rustName cls hclass =>
      cases value with
      | handle ptr =>
          cases hpass
          exact ⟨rfl, _, rfl, .encoded _ (.handle rustName ptr)⟩
      | _ => cases hpass
  | callback toks =>
      cases hpass
      exact ⟨rfl, _, rfl, .encoded _ (.callback toks value)⟩
  | storedCallback toks =>
      cases value with
      | token id =>
          cases hpass
          exact ⟨rfl, _, rfl, .encoded _ (.storedCallback toks id)⟩
      | _ => cases hpass
  | optionScalar s =>
      simp only [ParamForm.pass] at hpass
      split at hpass
      · rename_i hnil
        subst hnil
        obtain ⟨found, hfound, rfl⟩ := Option.map_eq_some_iff.mp hpass
        refine ⟨rfl, .ok (.option none), ?_,
          .encoded _ (.optionScalarNone s)⟩
        simp [PTy.bind]
      · rename_i hvalue
        obtain ⟨atom, hatom, hforeign⟩ := Option.bind_eq_some_iff.mp hpass
        obtain ⟨found, hfound, rfl⟩ := Option.map_eq_some_iff.mp hforeign
        obtain ⟨rfl, hholds⟩ := toForeign_scalar hfound
        have hatomValue : value = .atom found.atom := by
          cases value <;> cases hatom
          rfl
        subst hatomValue
        refine ⟨rfl, .ok (.option (some (.scalar found))), ?_,
          .encoded _ (.optionScalarSome s _ _ hvalue (.scalar s found hholds))⟩
        simp [PTy.bind]
  | optionStr =>
      simp only [ParamForm.pass] at hpass
      split at hpass
      · rename_i hnil
        subst hnil
        cases hpass
        exact ⟨rfl, .ok (.option none), rfl, .encoded _ .optionStrNone⟩
      · rename_i hvalue
        obtain ⟨octets, hlent, rfl⟩ := Option.map_eq_some_iff.mp hpass
        refine ⟨rfl, ?_⟩
        rcases strArg_lent hhost hlent with ⟨s, harg, rfl⟩ | ⟨harg, hrefused⟩
        · refine ⟨.ok (.option (some (.str s))), ?_,
            .encoded _ (.optionStrSome _ _ hvalue (.str s))⟩
          simp [PTy.bind, lendOctets, harg, Except.map]
        · refine ⟨.error Shim.statusInvalid, ?_, .refused hrefused⟩
          simp [PTy.bind, lendOctets, harg, Except.map]
  | optionBytes =>
      simp only [ParamForm.pass] at hpass
      split at hpass
      · rename_i hnil
        subst hnil
        cases hpass
        exact ⟨rfl, .ok (.option none), rfl, .encoded _ .optionBytesNone⟩
      · rename_i hvalue
        obtain ⟨octets, hlent, rfl⟩ := Option.map_eq_some_iff.mp hpass
        refine ⟨rfl, .ok (.option (some (.bytes octets))), ?_,
          .encoded _ (.optionBytesSome _ _ hvalue (octets_encode hlent))⟩
        simp [PTy.bind, lendOctets]

/-- The arguments of a call as the shim binds them, one by one; at the first
refusal the shim returns its status. -/
inductive BoundAll (host : WireHost) : List (String × PTy) →
    List LispValue → Except ℤ (List RustValue) → Prop
  | nil : BoundAll host [] [] (.ok [])
  | cons {param : String × PTy} {params : List (String × PTy)}
      {value : LispValue} {values : List LispValue} (bound : RustValue)
      (rest : Except ℤ (List RustValue))
      (hfirst : param.2.Encodes host value bound)
      (hrest : BoundAll host params values rest) :
      BoundAll host (param :: params) (value :: values)
        (rest.map (bound :: ·))
  | refused {param : String × PTy} {params : List (String × PTy)}
      {value : LispValue} {values : List LispValue}
      (hvalue : value.NotUnicode) :
      BoundAll host (param :: params) (value :: values) (.error Shim.statusInvalid)

/-- The forms of a parameter list. -/
def HaveForms (classOf : Datum → LispResult Symbol)
    (params : List (String × PTy)) (forms : List (String × ParamForm)) :
    Prop :=
  List.Forall₂ (fun param form => param.2.HasForm classOf form.2) params forms

theorem HaveForms.bind_pass (hhost : host.Lawful)
    {classOf : Datum → LispResult Symbol} {params : List (String × PTy)}
    {forms : List (String × ParamForm)}
    (hforms : HaveForms classOf params forms) {values : List LispValue}
    {wires : List Wire} (hpass : passParams host forms values = some wires) :
    ∃ bound, bindParams params wires = some bound ∧
      BoundAll host params values bound := by
  induction hforms generalizing values wires with
  | nil =>
      cases values with
      | nil =>
          cases hpass
          exact ⟨.ok [], rfl, .nil⟩
      | cons value values => cases hpass
  | @cons param form params forms hform hforms ih =>
      obtain ⟨name, pty⟩ := param
      obtain ⟨formName, paramForm⟩ := form
      cases values with
      | nil => cases hpass
      | cons value values =>
          obtain ⟨first, hfirst, hpass⟩ := Option.bind_eq_some_iff.mp hpass
          obtain ⟨rest, hrest, rfl⟩ := Option.map_eq_some_iff.mp hpass
          obtain ⟨hwidth, bound, hbind, hbound⟩ :=
            hform.bind_pass hhost name hfirst
          obtain ⟨later, hlater, hlaterBound⟩ := ih hrest
          have htake : (first ++ rest).take (pty.slots name).length = first := by
            rw [← hwidth, List.take_left]
          have hdrop : (first ++ rest).drop (pty.slots name).length = rest := by
            rw [← hwidth, List.drop_left]
          simp only [bindParams, htake, hdrop, hbind, Option.bind_some]
          cases hbound with
          | encoded bound hencodes =>
              exact ⟨later.map (bound :: ·), by simp [hlater],
                .cons bound later hencodes hlaterBound⟩
          | refused hvalue => exact ⟨_, rfl, .refused hvalue⟩

end Arguments

/-! ### Results -/

section Results

variable {host : WireHost}

theorem bytesIntoRaw_read (octets : List UInt8) :
    ∃ ptr len, bytesIntoRaw octets = [ptr, len] ∧
      foreignOctets ptr len = some octets := by
  unfold bytesIntoRaw
  split
  · rename_i hempty
    subst hempty
    exact ⟨.dangling, .length 0, rfl, rfl⟩
  · rename_i hnonempty
    refine ⟨.octets octets, .length octets.length, rfl, ?_⟩
    simp [foreignOctets]

theorem stringIntoRaw_read (hhost : host.Lawful) (s : String) :
    ∃ ptr len, stringIntoRaw s = [ptr, len] ∧
      foreignUtf8 host ptr len = some (.string (Utf8.codesOf s)) := by
  obtain ⟨ptr, len, hraw, hread⟩ := bytesIntoRaw_read (Utf8.octetsOf s)
  refine ⟨ptr, len, hraw, ?_⟩
  simp only [foreignUtf8, hread, Option.bind_some]
  split
  · rename_i codes hascii
    rw [Utf8.codesOf_of_asciiCodes hascii]
  · rw [hhost.octetsToString_utf8]
    rfl

theorem octetVector_eq_some (octets : List UInt8) :
    ∃ vector : SpecializedVector,
      octetVector octets = some (.specialized vector) ∧
        vector.type = .unsignedByte 8 ∧
        vector.elements = octets.map fun octet => .int octet.toNat := by
  have hholds : (octets.map fun octet =>
      ScalarValue.int octet.toNat).all (LispEltType.unsignedByte 8).holds =
        true := by
    simp only [List.all_map, List.all_eq_true, Function.comp_apply]
    intro octet _
    have hlt := octet.toNat_lt
    simp only [LispEltType.holds, decide_eq_true_eq]
    omega
  exact ⟨_, dif_pos hholds, rfl, rfl⟩

theorem Scalar.holds_lispType {s : Scalar} {value : ScalarValue}
    (hholds : s.holds value = true) :
    s.vecElt.lispType.holds value = true := by
  cases s <;> cases value <;>
    simp only [Scalar.holds, Scalar.vecElt, LispEltType.holds,
      Bool.false_eq_true, decide_eq_true_eq] at hholds ⊢
  all_goals omega

theorem makeArray_eq_some {s : Scalar} {elements : List ScalarValue}
    (hholds : elements.all s.holds = true) :
    ∃ vector : SpecializedVector,
      makeArray s.vecElt.lispType elements = some (.specialized vector) ∧
        vector.type = s.vecElt.lispType ∧ vector.elements = elements := by
  have hall : elements.all s.vecElt.lispType.holds = true := by
    apply List.all_eq_true.mpr
    intro element hmem
    exact Scalar.holds_lispType (List.all_eq_true.mp hholds element hmem)
  exact ⟨_, dif_pos hall, rfl, rfl⟩

theorem vecIntoRaw_read {s : Scalar} {elements : List ScalarValue}
    (hholds : elements.all s.holds = true) :
    ∃ ptr len, ∃ vector : SpecializedVector,
      vecIntoRaw elements = [ptr, len] ∧
        foreignElements s.vecElt.lispType ptr len =
          some (.specialized vector) ∧
        vector.type = s.vecElt.lispType ∧ vector.elements = elements := by
  obtain ⟨vector, hmake, htype, helements⟩ := makeArray_eq_some hholds
  unfold vecIntoRaw
  split
  · rename_i hempty
    subst hempty
    exact ⟨.dangling, .length 0, vector, rfl, hmake, htype, helements⟩
  · rename_i hnonempty
    refine ⟨.elements elements, .length elements.length, vector, rfl, ?_,
      htype, helements⟩
    simpa [foreignElements, hnonempty] using hmake

@[simp] theorem storedFlag_boolStore (b : Bool) :
    storedFlag (boolStore b) = some b := by
  cases b <;> rfl

theorem RTy.HasForm.take_store (hhost : host.Lawful)
    {classOf : Datum → LispResult Symbol} {rty : RTy} {form : ResultForm}
    (hform : rty.HasForm classOf form) {result : RustValue}
    {objects : List Stored} (hstore : rty.store result = some objects) :
    ∃ value, form.take host objects = some value ∧
      rty.Returns result value := by
  -- the alternatives of the shim's `write_ok`
  unfold RTy.store at hstore
  split at hstore
  · cases hform
    cases hstore
    exact ⟨_, rfl, .unit⟩
  · rename_i s value
    cases hform
    split at hstore
    · cases hstore
      exact ⟨_, rfl, .scalar s value⟩
    · cases hstore
  · rename_i b
    cases hform
    cases hstore
    refine ⟨_, ?_, .bool b⟩
    simp [ResultForm.take]
  · rename_i str
    cases hform
    cases hstore
    obtain ⟨ptr, len, hraw, hread⟩ := stringIntoRaw_read hhost str
    rw [hraw]
    exact ⟨_, hread, .str str⟩
  · rename_i octets
    cases hform
    cases hstore
    obtain ⟨ptr, len, hraw, hread⟩ := bytesIntoRaw_read octets
    obtain ⟨vector, hvector, htype, helements⟩ := octetVector_eq_some octets
    rw [hraw]
    refine ⟨_, ?_, .bytes octets vector htype helements⟩
    simp [ResultForm.take, hread, hvector]
  · rename_i rustName ptr
    cases hform
    cases hstore
    exact ⟨_, rfl, .handle rustName ptr⟩
  · rename_i s elements
    cases hform
    split at hstore
    · rename_i hholds
      cases hstore
      obtain ⟨ptr, len, vector, hraw, hread, htype, helements⟩ :=
        vecIntoRaw_read hholds
      rw [hraw]
      exact ⟨_, hread, .slice s elements vector htype helements⟩
    · cases hstore
  · rename_i s value
    cases hform
    split at hstore
    · cases hstore
      refine ⟨_, ?_, .optionScalarSome s _ _ (.scalar s value)⟩
      simp [ResultForm.take, Stored.scalarValue]
    · cases hstore
  · rename_i s
    cases hform
    cases hstore
    exact ⟨_, rfl, .optionScalarNone s⟩
  · rename_i str
    cases hform
    cases hstore
    obtain ⟨ptr, len, hraw, hread⟩ := stringIntoRaw_read hhost str
    rw [hraw]
    refine ⟨_, ?_, .optionStrSome _ _ (.str str)⟩
    simp [ResultForm.take, hread]
  · cases hform
    cases hstore
    exact ⟨_, rfl, .optionStrNone⟩
  · rename_i octets
    cases hform
    cases hstore
    obtain ⟨ptr, len, hraw, hread⟩ := bytesIntoRaw_read octets
    obtain ⟨vector, hvector, htype, helements⟩ := octetVector_eq_some octets
    rw [hraw]
    refine ⟨_, ?_, .optionBytesSome _ _ (.bytes octets vector htype helements)⟩
    simp [ResultForm.take, hread, hvector]
  · cases hform
    cases hstore
    exact ⟨_, rfl, .optionBytesNone⟩
  · cases hstore

end Results

/-! ## Agreement -/

/-- A shim and a wrapper that may be linked. -/
structure WireAgreement (host : WireHost) (shim : Shim) (form : WrapperForm) :
    Prop where
  arguments : (shim.externParams ++ shim.outParams).types.map CType.cffi =
    form.foreignTypes.map some
  outObjects : shim.outParams.types.map
      (fun type => type.pointee.bind CType.cffi) =
    form.result.outObjects.map some
  callbacks : List.Forall₂
    (fun param form => ∀ toks, param.2.callbackToks = some toks →
      CallbackAgreement toks form.2) shim.params form.params
  bound : ∀ values wires, passParams host form.params values = some wires →
    ∃ bound, bindParams shim.params wires = some bound ∧
      BoundAll host shim.params values bound
  none : ∀ param ∈ shim.params, ∀ value base,
    param.2.Encodes host value (.option base) → (base = none ↔ value = .nil)
  returned : ∀ result objects, shim.result.store result = some objects →
    ∃ value, form.result.take host objects = some value ∧
      shim.result.Returns result value

theorem wrapperForm_hasForms [LispCase] {classOf : Datum → LispResult Symbol}
    {f : ExportedFn} {qualified : String} {form : WrapperForm}
    (hform : wrapperForm classOf (genMetaConst f).spec qualified = .ok form) :
    HaveForms classOf f.params form.params ∧
      f.result.HasForm classOf form.result := by
  obtain ⟨params, hparams, hform⟩ := LispResult.bind_eq_ok.mp hform
  obtain ⟨-, -, hform⟩ := LispResult.bind_eq_ok.mp hform
  obtain ⟨result, hresult, hform⟩ := LispResult.bind_eq_ok.mp hform
  cases hform
  refine ⟨?_, RTy.hasForm hresult⟩
  have hspecs : (genMetaConst f).spec.params = f.params.map fun param =>
      { name := param.1, type := param.2.meta.datum } := by
    simp [genMetaConst, FnMeta.spec, ParamMeta.spec]
  have hcollected := collect_eq_ok hparams
  rw [hspecs, List.forall₂_map_left_iff] at hcollected
  refine List.Forall₂.imp (fun param form hparam => ?_) hcollected
  obtain ⟨found, hfound, hparam⟩ := LispResult.bind_eq_ok.mp hparam
  cases hparam
  exact PTy.hasForm hfound

theorem HaveForms.slotTypes {classOf : Datum → LispResult Symbol}
    {params : List (String × PTy)} {forms : List (String × ParamForm)}
    (hforms : HaveForms classOf params forms) :
    (Slots.types (params.flatMap fun (name, pty) =>
      pty.slots (shimIdent name))).map CType.cffi =
        (forms.flatMap (·.2.foreignTypes)).map some := by
  induction hforms with
  | nil => rfl
  | @cons param form params forms hform hforms ih =>
      have hfirst := hform.slotTypes (shimIdent param.1)
      simp only [Slots.types, List.flatMap_cons, List.map_append] at hfirst ih ⊢
      rw [hfirst, ih]

def charOf (code : ℕ) : Option Char :=
  if code.isValidChar then some (Char.ofNat code) else none

theorem charOf_toNat (ch : Char) : charOf ch.toNat = some ch := by
  have hvalid : ch.toNat.isValidChar := ch.valid
  rw [charOf, if_pos hvalid, Char.ofNat_toNat]

theorem toNat_of_charOf {code : ℕ} {ch : Char} (hchar : charOf code = some ch) :
    ch.toNat = code := by
  unfold charOf at hchar
  split at hchar
  · rename_i hvalid
    cases hchar
    rw [Char.ofNat, dif_pos hvalid]
    rfl
  · cases hchar

/-- A host that coerces floats of the very type only, and encodes the
strings of Unicode scalar values. -/
def strictHost : WireHost where
  toSingle := fun
    | .single bits => some bits
    | _ => none
  toDouble := fun
    | .double bits => some bits
    | _ => none
  stringToOctets := fun codes =>
    (codes.mapM charOf).map fun chars => Utf8.octetsOf (String.ofList chars)
  octetsToString := fun octets => (Utf8.decode octets).map Utf8.codesOf

theorem mapM_charOf_eq_some {codes : List ℕ} {chars : List Char}
    (hchars : codes.mapM charOf = some chars) :
    Utf8.codesOf (String.ofList chars) = codes := by
  rw [Utf8.codesOf_ofList]
  have hpairs := mapM_forall₂ hchars
  clear hchars
  induction hpairs with
  | nil => rfl
  | cons hfirst hrest ih => rw [List.map_cons, ih, toNat_of_charOf hfirst]

theorem strictHost_lawful : strictHost.Lawful := by
  constructor
  · intro bits
    rfl
  · intro bits
    rfl
  · intro s
    have hchars : (Utf8.codesOf s).mapM charOf = some s.toList := by
      unfold Utf8.codesOf
      induction s.toList with
      | nil => rfl
      | cons ch rest ih => simp [charOf_toNat, ih]
    simp [strictHost, hchars]
  · intro codes codes' octets hcodes hcodes'
    obtain ⟨chars, hchars, hoctets⟩ := Option.map_eq_some_iff.mp hcodes
    obtain ⟨chars', hchars', hoctets'⟩ := Option.map_eq_some_iff.mp hcodes'
    have hsame := Utf8.octetsOf_injective (hoctets.trans hoctets'.symm)
    rw [← mapM_charOf_eq_some hchars, ← mapM_charOf_eq_some hchars', hsame]
  · intro s
    simp [strictHost]

/-- `fn scan(&self, word: Option<&str>, each: Callback<(&str,), ()>)
-> Result<Option<Vec<u8>>, Error>`. -/
def scanFn : ExportedFn where
  doc := none
  rustName := "Bag::scan"
  lispName := "bag-scan"
  symbol := "bag_scan"
  params := [("self", .handleRef "Bag"), ("word", .optionStr),
    ("each", .callback [.string])]
  result := .optionBytes
  error := some "Error"
  call := .method "scan"

end Rulisp
