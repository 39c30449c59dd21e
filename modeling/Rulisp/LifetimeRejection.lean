import Rulisp.ExportSyntax
import Rulisp.ManifestRoundTrip

/-!
# Lifetimes of what a shim borrows

A shim binds references and callbacks that live for the call only.  The
results below follow them from the syntax that was accepted to the
parameters of the shim, and show which of them can carry a named lifetime:
those with a lifetime where the check does not look.
-/

namespace Rulisp

/-! ## Lifetimes in a type -/

/-- A lifetime that is written in a type, and whether it stands where
`reject_named_lifetimes` looks. -/
structure Written where
  ident : String
  seen : Bool
  deriving DecidableEq, Repr

mutual

def Ty.written (seen : Bool) : Ty → List Written
  | .reference lifetime _ elem =>
      lifetime.toList.map (⟨·, seen⟩) ++ elem.written seen
  | .slice elem => elem.written seen
  | .tuple elems => elemsWritten seen elems
  | .paren elem => elem.written seen
  | .group elem => elem.written seen
  | .path none (.mk _ init last) =>
      segmentsWritten seen init ++ last.written seen
  | .path (some qself) (.mk _ init last) =>
      qself.written false ++ (segmentsWritten seen init ++ last.written seen)
  | .other lifetimes => lifetimes.map (⟨·, false⟩)

def elemsWritten (seen : Bool) : List Ty → List Written
  | [] => []
  | ty :: rest => ty.written seen ++ elemsWritten seen rest

def segmentsWritten (seen : Bool) : List Segment → List Written
  | [] => []
  | seg :: rest => seg.written seen ++ segmentsWritten seen rest

def Segment.written (seen : Bool) : Segment → List Written
  | .mk _ .none => []
  | .mk _ (.angleBracketed args) => argumentsWritten seen args
  | .mk _ (.parenthesized inputs none) => elemsWritten false inputs
  | .mk _ (.parenthesized inputs (some output)) =>
      elemsWritten false inputs ++ output.written false

def argumentsWritten (seen : Bool) : List GenericArgument → List Written
  | [] => []
  | .lifetime lt :: rest => ⟨lt, seen⟩ :: argumentsWritten seen rest
  | .type ty :: rest => ty.written seen ++ argumentsWritten seen rest
  | .other lifetimes :: rest =>
      lifetimes.map (⟨·, false⟩) ++ argumentsWritten seen rest

end

/-! ## What the check looks at -/

/-- No lifetime that stands where the check looks has a name. -/
def Checked (written : List Written) : Prop :=
  ∀ w ∈ written, w.seen = true → w.ident = "_"

@[simp] theorem checked_nil : Checked [] := nofun

@[simp] theorem checked_append {left right : List Written} :
    Checked (left ++ right) ↔ Checked left ∧ Checked right :=
  List.forall_mem_append

@[simp] theorem checked_cons {w : Written} {rest : List Written} :
    Checked (w :: rest) ↔ (w.seen = true → w.ident = "_") ∧ Checked rest :=
  List.forall_mem_cons

@[simp] theorem checked_unseen (lifetimes : List String) :
    Checked (lifetimes.map (⟨·, false⟩)) := by
  intro w hw
  obtain ⟨_, -, rfl⟩ := List.mem_map.mp hw
  exact nofun

@[simp] theorem named_eq_ok_iff {lt : String} : named lt = .ok () ↔ lt = "_" := by
  unfold named
  split
  · simpa using ‹_›
  · simpa using ‹_›

@[simp] theorem MacroResult.andThen_eq_ok_iff {x y : MacroResult Unit} :
    (do x; y) = .ok () ↔ x = .ok () ∧ y = .ok () := by
  rw [MacroResult.bind_eq_ok]
  constructor
  · rintro ⟨⟨⟩, hx, hy⟩
    exact ⟨hx, hy⟩
  · exact fun hboth => ⟨(), hboth⟩

theorem checked_lifetime {lifetime : Option String} {seen : Bool} :
    Checked (lifetime.toList.map (⟨·, seen⟩)) ↔
      (seen = true → (lifetime.forM named : MacroResult Unit) = .ok ()) := by
  cases lifetime with
  | none => simp [Option.forM, pure, Except.pure]
  | some lt => simp [Option.forM]

mutual

/-- The check passes a type exactly if none of the lifetimes that it sees has
a name. -/
theorem checked_written (seen : Bool) : ∀ ty : Ty,
    Checked (ty.written seen) ↔
      (seen = true → rejectNamedLifetimes ty = .ok ())
  | .reference lifetime _ elem => by
      simp only [Ty.written, rejectNamedLifetimes, checked_append,
        checked_lifetime, checked_written seen elem,
        MacroResult.andThen_eq_ok_iff, imp_and]
  | .slice elem | .paren elem | .group elem => checked_written seen elem
  | .tuple elems => checked_elemsWritten seen elems
  | .path none (.mk _ init last) => by
      simp only [Ty.written, rejectNamedLifetimes, checked_append,
        checked_segmentsWritten seen init, checked_segmentWritten seen last,
        MacroResult.andThen_eq_ok_iff, imp_and]
  | .path (some qself) (.mk _ init last) => by
      have hqself : Checked (qself.written false) :=
        (checked_written false qself).mpr nofun
      simp only [Ty.written, rejectNamedLifetimes, checked_append, hqself,
        checked_segmentsWritten seen init, checked_segmentWritten seen last,
        MacroResult.andThen_eq_ok_iff, imp_and, true_and]
  | .other lifetimes => by simp [Ty.written, rejectNamedLifetimes]

theorem checked_elemsWritten (seen : Bool) : ∀ elems : List Ty,
    Checked (elemsWritten seen elems) ↔
      (seen = true → rejectElems elems = .ok ())
  | [] => by simp [elemsWritten, rejectElems]
  | ty :: rest => by
      simp only [elemsWritten, rejectElems, checked_append,
        checked_written seen ty, checked_elemsWritten seen rest,
        MacroResult.andThen_eq_ok_iff, imp_and]

theorem checked_segmentsWritten (seen : Bool) : ∀ segs : List Segment,
    Checked (segmentsWritten seen segs) ↔
      (seen = true → rejectSegments segs = .ok ())
  | [] => by simp [segmentsWritten, rejectSegments]
  | seg :: rest => by
      simp only [segmentsWritten, rejectSegments, checked_append,
        checked_segmentWritten seen seg, checked_segmentsWritten seen rest,
        MacroResult.andThen_eq_ok_iff, imp_and]

theorem checked_segmentWritten (seen : Bool) : ∀ seg : Segment,
    Checked (seg.written seen) ↔
      (seen = true → rejectSegment seg = .ok ())
  | .mk _ .none => by simp [Segment.written, rejectSegment]
  | .mk _ (.angleBracketed args) => checked_argumentsWritten seen args
  | .mk _ (.parenthesized inputs none) => by
      have hinputs : Checked (elemsWritten false inputs) :=
        (checked_elemsWritten false inputs).mpr nofun
      simp [Segment.written, rejectSegment, hinputs]
  | .mk _ (.parenthesized inputs (some output)) => by
      have hinputs : Checked (elemsWritten false inputs) :=
        (checked_elemsWritten false inputs).mpr nofun
      have houtput : Checked (output.written false) :=
        (checked_written false output).mpr nofun
      simp [Segment.written, rejectSegment, hinputs, houtput]

theorem checked_argumentsWritten (seen : Bool) : ∀ args : List GenericArgument,
    Checked (argumentsWritten seen args) ↔
      (seen = true → rejectArguments args = .ok ())
  | [] => by simp [argumentsWritten, rejectArguments]
  | .lifetime lt :: rest => by
      simp only [argumentsWritten, rejectArguments, checked_cons,
        checked_argumentsWritten seen rest, named_eq_ok_iff,
        MacroResult.andThen_eq_ok_iff, imp_and]
  | .type ty :: rest => by
      simp only [argumentsWritten, rejectArguments, checked_append,
        checked_written seen ty, checked_argumentsWritten seen rest,
        MacroResult.andThen_eq_ok_iff, imp_and]
  | .other lifetimes :: rest => by
      simp only [argumentsWritten, rejectArguments, checked_append,
        checked_unseen, checked_argumentsWritten seen rest, true_and]

end

/-! ## What a shim borrows -/

inductive BorrowKind
  | str
  | slice
  | handle
  | callback
  deriving DecidableEq, Repr

/-- A reference or a callback in a signature, with all lifetimes that are
written in its type. -/
structure Borrow where
  kind : BorrowKind
  written : List Written
  deriving DecidableEq, Repr

def Token.borrows : Token → List BorrowKind
  | .string => [.str]
  | _ => []

/-- What the prelude of a parameter borrows; a callback also lends the
strings that it is called with. -/
def PTy.borrows : PTy → List BorrowKind
  | .strRef => [.str]
  | .bytesRef => [.slice]
  | .vecScalar _ => [.slice]
  | .handleRef _ => [.handle]
  | .optionStr => [.str]
  | .optionBytes => [.slice]
  | .callback paramToks => .callback :: paramToks.flatMap Token.borrows
  | .storedCallback paramToks => paramToks.flatMap Token.borrows
  | .scalar _ | .bool | .optionScalar _ => []

/-- The kind of a reference to a type that `classify_param` takes. -/
def Ty.referent : Ty → BorrowKind
  | .slice _ => .slice
  | .path _ p => if p.isIdent "str" then .str else .handle
  | _ => .handle

mutual

/-- The references and callbacks of an accepted type, where they stand. -/
def Ty.borrows : Ty → List Borrow
  | .reference lifetime isMut elem =>
      [{ kind := elem.referent
         written := (Ty.reference lifetime isMut elem).written true }]
  | .path qself (.mk leadingColon init (.mk ident arguments)) =>
      if ident.text = "Option" then optionBorrows arguments
      else if ident.text = "Callback" then
        { kind := .callback
          written := (Ty.path qself
            (.mk leadingColon init (.mk ident arguments))).written true } ::
          callbackBorrows arguments
      else if ident.text = "StoredCallback" then callbackBorrows arguments
      else []
  | _ => []

def optionBorrows : PathArguments → List Borrow
  | .angleBracketed (.type inner :: _) => inner.borrows
  | _ => []

def callbackBorrows : PathArguments → List Borrow
  | .angleBracketed args => argsBorrows args
  | _ => []

/-- Those of the first type argument, a tuple. -/
def argsBorrows : List GenericArgument → List Borrow
  | [] => []
  | .type ty :: _ => tupleBorrows ty
  | .lifetime _ :: rest => argsBorrows rest
  | .other _ :: rest => argsBorrows rest

def tupleBorrows : Ty → List Borrow
  | .tuple elems => elemsBorrows elems
  | _ => []

def elemsBorrows : List Ty → List Borrow
  | [] => []
  | elem :: rest => elem.borrows ++ elemsBorrows rest

end

/-- The type of an `impl` block is not looked at. -/
def Receiver.borrow (selfTy : Option Ty) (r : Receiver) : Borrow where
  kind := .handle
  written := r.reference.join.toList.map (⟨·, true⟩) ++
    selfTy.toList.flatMap (Ty.written false)

def Signature.borrows (selfTy : Option Ty) (sig : Signature) : List Borrow :=
  sig.receiver.toList.map (Receiver.borrow selfTy) ++
    sig.inputs.flatMap fun input => input.2.borrows

def ExportItem.borrows : ExportItem → List Borrow
  | .free _ sig => sig.borrows none
  | .method selfTy m => m.sig.borrows (some selfTy)

/-! ## What is accepted -/

theorem findScalar_eq_some {name : String} {s : Scalar}
    (hfind : findScalar name = some s) : name = s.name := by
  have hname := List.find?_some hfind
  exact (of_decide_eq_true hname).symm

section Accepted

variable {rustNameOf : Path → Ident}

theorem classifyParam_reject {ty : Ty} {pty : PTy}
    (hclassify : classifyParam rustNameOf ty = .ok pty) :
    rejectNamedLifetimes ty = .ok () := by
  have hbind : ∀ {f : Unit → MacroResult PTy},
      (rejectNamedLifetimes ty >>= f) = .ok pty →
      rejectNamedLifetimes ty = .ok () := by
    intro f hf
    obtain ⟨⟨⟩, hreject, -⟩ := MacroResult.bind_eq_ok.mp hf
    exact hreject
  cases ty with
  | reference _ _ _ => exact hbind hclassify
  | path qself p =>
      obtain ⟨_, _, ⟨_, _⟩⟩ := p
      exact hbind hclassify
  | _ => exact hbind hclassify

theorem classifyParam_checked {ty : Ty} {pty : PTy}
    (hclassify : classifyParam rustNameOf ty = .ok pty) :
    Checked (ty.written true) :=
  (checked_written true ty).mpr fun _ => classifyParam_reject hclassify

/-- The branches of `classify_param` that accept. -/
theorem classifyParam_cases {ty : Ty} {pty : PTy}
    (hclassify : classifyParam rustNameOf ty = .ok pty) :
    (∃ lifetime isMut elem, ty = .reference lifetime isMut elem ∧
      classifyReference rustNameOf isMut elem = .ok pty) ∨
    ∃ qself leadingColon init ident arguments,
      ty = .path qself (.mk leadingColon init (.mk ident arguments)) ∧
      ((∃ s, ident.text = s.name ∧ pty = .scalar s) ∨
        (ident.text = "bool" ∧ pty = .bool) ∨
        (ident.text = "Callback" ∧
          classifyCallback rustNameOf false arguments = .ok pty) ∨
        (ident.text = "StoredCallback" ∧
          classifyCallback rustNameOf true arguments = .ok pty) ∨
        (ident.text = "Option" ∧
          classifyOption rustNameOf arguments = .ok pty)) := by
  cases ty with
  | reference lifetime isMut elem =>
      obtain ⟨⟨⟩, -, hreference⟩ := MacroResult.bind_eq_ok.mp hclassify
      exact .inl ⟨lifetime, isMut, elem, rfl, hreference⟩
  | path qself p =>
      obtain ⟨leadingColon, init, ⟨ident, arguments⟩⟩ := p
      obtain ⟨⟨⟩, -, hpath⟩ := MacroResult.bind_eq_ok.mp hclassify
      refine .inr ⟨qself, leadingColon, init, ident, arguments, rfl, ?_⟩
      cases hscalar : findScalar ident.text with
      | some s =>
          simp only [hscalar] at hpath
          cases hpath
          exact .inl ⟨s, findScalar_eq_some hscalar, rfl⟩
      | none =>
          simp only [hscalar] at hpath
          split at hpath
          · rename_i hname
            cases hpath
            exact .inr (.inl ⟨hname, rfl⟩)
          · split at hpath
            · exact .inr (.inr (.inl ⟨‹_›, hpath⟩))
            · split at hpath
              · exact .inr (.inr (.inr (.inl ⟨‹_›, hpath⟩)))
              · split at hpath
                · exact .inr (.inr (.inr (.inr ⟨‹_›, hpath⟩)))
                · cases hpath
  | _ =>
      obtain ⟨⟨⟩, -, hother⟩ := MacroResult.bind_eq_ok.mp hclassify
      cases hother

/-- A reference is of the kind that the shim borrows. -/
theorem classifyReference_borrows {isMut : Bool} {elem : Ty} {pty : PTy}
    (hreference : classifyReference rustNameOf isMut elem = .ok pty) :
    pty.borrows = [elem.referent] := by
  unfold classifyReference at hreference
  split at hreference
  · cases hreference
  · split at hreference
    · split at hreference
      · cases hreference
        rfl
      · split at hreference
        · cases hreference
          rfl
        · cases hreference
    · rename_i p
      split at hreference
      · rename_i hstr
        cases hreference
        simp [PTy.borrows, Ty.referent, hstr]
      · rename_i hstr
        cases hreference
        simp [PTy.borrows, Ty.referent, hstr]
    · cases hreference

/-- The types that may stand in `Option` or among a callback's arguments. -/
def PTy.isSimple : PTy → Bool
  | .scalar _ | .bool | .strRef | .bytesRef => true
  | _ => false

theorem optionOf_eq_ok {inner pty : PTy} (hoption : optionOf inner = .ok pty) :
    inner.isSimple = true ∧ pty.isSimple = false ∧
      pty.borrows = inner.borrows := by
  cases inner <;> cases hoption <;> exact ⟨rfl, rfl, rfl⟩

theorem callbackToken_eq_ok {pty : PTy} {tok : Token}
    (htok : callbackToken pty = .ok tok) :
    pty.isSimple = true ∧ pty.borrows = tok.borrows := by
  cases pty <;> cases htok <;> exact ⟨rfl, rfl⟩

theorem classifyOption_eq_ok {arguments : PathArguments} {pty : PTy}
    (hoption : classifyOption rustNameOf arguments = .ok pty) :
    ∃ inner rest innerTy, arguments = .angleBracketed (.type inner :: rest) ∧
      classifyParam rustNameOf inner = .ok innerTy ∧
      optionOf innerTy = .ok pty := by
  cases arguments with
  | angleBracketed args =>
      cases args with
      | nil => cases hoption
      | cons arg rest =>
          cases arg with
          | type inner =>
              obtain ⟨innerTy, hinner, hoption⟩ :=
                MacroResult.bind_eq_ok.mp hoption
              exact ⟨inner, rest, innerTy, rfl, hinner, hoption⟩
          | _ => cases hoption
  | _ => cases hoption

theorem callbackTypes_cons {args : List GenericArgument} {ty : Ty}
    {toks : MacroResult (List Token)}
    {rest : List (Ty × MacroResult (List Token))}
    (htypes : callbackTypes rustNameOf args = (ty, toks) :: rest) :
    toks = tupleTokens rustNameOf ty ∧ argsBorrows args = tupleBorrows ty := by
  induction args with
  | nil => cases htypes
  | cons arg others ih =>
      cases arg with
      | lifetime _ => exact ih htypes
      | type first =>
          cases htypes
          exact ⟨rfl, rfl⟩
      | other _ => exact ih htypes

/-- A callback's tokens are those of its tuple's elements. -/
theorem classifyCallback_eq_ok {stored : Bool} {arguments : PathArguments}
    {pty : PTy}
    (hcallback : classifyCallback rustNameOf stored arguments = .ok pty) :
    ∃ elems toks, elemTokens rustNameOf elems = .ok toks ∧
      callbackBorrows arguments = elemsBorrows elems ∧
      pty = (if stored then .storedCallback toks else .callback toks) := by
  have hmap : ∀ {elems : List Ty} {f : List Token → PTy},
      (tupleTokens rustNameOf (.tuple elems)).map f = .ok pty →
      ∃ toks, elemTokens rustNameOf elems = .ok toks ∧ pty = f toks := by
    intro elems f hf
    cases htoks : elemTokens rustNameOf elems with
    | error e =>
        simp only [tupleTokens, htoks] at hf
        cases hf
    | ok toks =>
        simp only [tupleTokens, htoks] at hf
        cases hf
        exact ⟨toks, rfl, rfl⟩
  cases arguments with
  | angleBracketed args =>
      have hof : callbackOf stored (callbackTypes rustNameOf args) = .ok pty :=
        hcallback
      unfold callbackOf at hof
      split at hof
      · rename_i elems _ htypes
        obtain ⟨rfl, hborrows⟩ := callbackTypes_cons htypes
        cases stored with
        | false => cases hof
        | true =>
            obtain ⟨toks, htoks, hpty⟩ := hmap hof
            exact ⟨elems, toks, htoks, hborrows, hpty⟩
      · rename_i elems _ _ _ htypes
        obtain ⟨rfl, hborrows⟩ := callbackTypes_cons htypes
        split at hof
        · obtain ⟨toks, htoks, hpty⟩ := hmap hof
          refine ⟨elems, toks, htoks, hborrows, ?_⟩
          cases stored <;> exact hpty
        · cases hof
      · cases hof
  | _ => cases hcallback

/-- A simple type borrows by its own reference or not at all. -/
theorem borrows_of_simple {ty : Ty} {pty : PTy}
    (hclassify : classifyParam rustNameOf ty = .ok pty)
    (hsimple : pty.isSimple = true) :
    ty.borrows.map Borrow.kind = pty.borrows ∧
      ∀ b ∈ ty.borrows, Checked b.written := by
  have hchecked := classifyParam_checked hclassify
  rcases classifyParam_cases hclassify with
    ⟨lifetime, isMut, elem, rfl, hreference⟩ |
    ⟨qself, leadingColon, init, ident, arguments, rfl, hpath⟩
  · rw [classifyReference_borrows hreference]
    refine ⟨rfl, fun b hb => ?_⟩
    rw [List.mem_singleton.mp hb]
    exact hchecked
  · rcases hpath with ⟨s, hname, rfl⟩ | ⟨hname, rfl⟩ | ⟨-, hcallback⟩ |
      ⟨-, hcallback⟩ | ⟨-, hoption⟩
    · have hnone : s.name ≠ "Option" ∧ s.name ≠ "Callback" ∧
          s.name ≠ "StoredCallback" := by
        cases s <;> decide
      simp [Ty.borrows, PTy.borrows, hname, hnone]
    · simp [Ty.borrows, PTy.borrows, hname]
    · obtain ⟨_, _, -, -, rfl⟩ := classifyCallback_eq_ok hcallback
      cases hsimple
    · obtain ⟨_, _, -, -, rfl⟩ := classifyCallback_eq_ok hcallback
      cases hsimple
    · obtain ⟨_, _, _, -, -, hof⟩ := classifyOption_eq_ok hoption
      rw [(optionOf_eq_ok hof).2.1] at hsimple
      cases hsimple

/-- The borrows of a callback's arguments. -/
theorem elemTokens_borrows {elems : List Ty} {toks : List Token}
    (htoks : elemTokens rustNameOf elems = .ok toks) :
    (elemsBorrows elems).map Borrow.kind = toks.flatMap Token.borrows ∧
      ∀ b ∈ elemsBorrows elems, Checked b.written := by
  induction elems generalizing toks with
  | nil =>
      cases htoks
      simp [elemsBorrows]
  | cons elem rest ih =>
      obtain ⟨pty, hpty, htoks⟩ := MacroResult.bind_eq_ok.mp htoks
      obtain ⟨tok, htok, htoks⟩ := MacroResult.bind_eq_ok.mp htoks
      obtain ⟨others, hothers, htoks⟩ := MacroResult.bind_eq_ok.mp htoks
      cases htoks
      obtain ⟨hkinds, hrest⟩ := ih hothers
      obtain ⟨hsimple, htokens⟩ := callbackToken_eq_ok htok
      obtain ⟨hkind, hown⟩ := borrows_of_simple hpty hsimple
      constructor
      · simp [elemsBorrows, hkind, hkinds, htokens]
      · intro b hb
        rcases List.mem_append.mp hb with hmem | hmem
        · exact hown b hmem
        · exact hrest b hmem

/-- A parameter's borrows are those of its type, and are elided. -/
theorem classifyParam_borrows {ty : Ty} {pty : PTy}
    (hclassify : classifyParam rustNameOf ty = .ok pty) :
    ty.borrows.map Borrow.kind = pty.borrows ∧
      ∀ b ∈ ty.borrows, Checked b.written := by
  have hchecked := classifyParam_checked hclassify
  rcases classifyParam_cases hclassify with
    ⟨lifetime, isMut, elem, rfl, hreference⟩ |
    ⟨qself, leadingColon, init, ident, arguments, rfl, hpath⟩
  · rw [classifyReference_borrows hreference]
    refine ⟨rfl, fun b hb => ?_⟩
    rw [List.mem_singleton.mp hb]
    exact hchecked
  · rcases hpath with ⟨s, hname, rfl⟩ | ⟨hname, rfl⟩ | ⟨hname, hcallback⟩ |
      ⟨hname, hcallback⟩ | ⟨hname, hoption⟩
    · exact borrows_of_simple hclassify rfl
    · exact borrows_of_simple hclassify rfl
    · obtain ⟨elems, toks, htoks, hborrows, rfl⟩ :=
        classifyCallback_eq_ok hcallback
      obtain ⟨hkinds, helided⟩ := elemTokens_borrows htoks
      have hty : (Ty.path qself
          (.mk leadingColon init (.mk ident arguments))).borrows =
            { kind := .callback
              written := (Ty.path qself
                (.mk leadingColon init (.mk ident arguments))).written true } ::
              elemsBorrows elems := by
        simp [Ty.borrows, hname, hborrows]
      rw [hty]
      exact ⟨by simp [PTy.borrows, hkinds],
        List.forall_mem_cons.mpr ⟨hchecked, helided⟩⟩
    · obtain ⟨elems, toks, htoks, hborrows, rfl⟩ :=
        classifyCallback_eq_ok hcallback
      have hty : (Ty.path qself
          (.mk leadingColon init (.mk ident arguments))).borrows =
            elemsBorrows elems := by
        simp [Ty.borrows, hname, hborrows]
      rw [hty]
      exact elemTokens_borrows htoks
    · obtain ⟨inner, rest, innerTy, rfl, hinner, hof⟩ :=
        classifyOption_eq_ok hoption
      obtain ⟨hinnerSimple, -, hborrows⟩ := optionOf_eq_ok hof
      have hty : (Ty.path qself (.mk leadingColon init (.mk ident
          (.angleBracketed (.type inner :: rest))))).borrows =
            inner.borrows := by
        simp [Ty.borrows, hname, optionBorrows]
      rw [hty, hborrows]
      exact borrows_of_simple hinner hinnerSimple

theorem selfParam_eq_ok {selfTy : Option Path} {p : String × PTy}
    (hself : selfParam rustNameOf selfTy = .ok p) :
    ∃ path, selfTy = some path ∧
      p = ("self", .handleRef (rustNameOf path).text) := by
  cases selfTy with
  | none => cases hself
  | some path =>
      cases hself
      exact ⟨path, rfl, rfl⟩

/-- Only `&self` is accepted, and `&'_ self`. -/
theorem receiverParam_eq_ok {selfTy : Option Path} {r : Receiver}
    {p : String × PTy}
    (hreceiver : receiverParam rustNameOf selfTy r = .ok p) :
    (∃ path, selfTy = some path ∧
      p = ("self", .handleRef (rustNameOf path).text)) ∧
      ∀ lt ∈ r.reference.join, lt = "_" := by
  obtain ⟨reference, isMut, colonToken⟩ := r
  rcases reference with _ | _ | lt
  · cases isMut <;> cases hreceiver
  · cases isMut with
    | true => cases hreceiver
    | false => exact ⟨selfParam_eq_ok hreceiver, by simp⟩
  · by_cases hlt : lt = "_"
    · subst hlt
      cases isMut with
      | true => cases hreceiver
      | false => exact ⟨selfParam_eq_ok hreceiver, by simp⟩
    · simp [receiverParam, hlt, bind, Except.bind] at hreceiver

theorem typedParam_eq_ok {input : Option Ident × Ty} {p : String × PTy}
    (htyped : typedParam rustNameOf input = .ok p) :
    ∃ pat, input.1 = some pat ∧ p.1 = pat.text ∧
      classifyParam rustNameOf input.2 = .ok p.2 := by
  obtain ⟨pat, ty⟩ := input
  cases pat with
  | none => cases htyped
  | some pat =>
      obtain ⟨pty, hpty, htyped⟩ := MacroResult.bind_eq_ok.mp htyped
      cases htyped
      exact ⟨pat, rfl, rfl, hpty⟩

theorem Receiver.checked_borrow {r : Receiver}
    (hreference : ∀ lt ∈ r.reference.join, lt = "_") (implTy : Option Ty) :
    Checked (r.borrow implTy).written := by
  have hself : ∀ ty : Ty, Checked (ty.written false) :=
    fun ty => (checked_written false ty).mpr nofun
  refine checked_append.mpr ⟨?_, ?_⟩
  · intro w hw _
    obtain ⟨lt, hlt, rfl⟩ := List.mem_map.mp hw
    exact hreference lt (Option.mem_toList.mp hlt)
  · intro w hw
    obtain ⟨ty, -, hw⟩ := List.mem_flatMap.mp hw
    exact hself ty w hw

/-- The shim binds what stands in the signature, in its order. -/
theorem fnParams_borrows {selfTy : Option Path} {sig : Signature}
    {params : List (String × PTy)}
    (hparams : fnParams rustNameOf selfTy sig = .ok params)
    (implTy : Option Ty) :
    (sig.borrows implTy).map Borrow.kind = params.flatMap (·.2.borrows) ∧
      ∀ b ∈ sig.borrows implTy, Checked b.written := by
  obtain ⟨self, typed, rfl, hself, htyped⟩ := fnParams_eq_ok hparams
  have hreceiver :
      (sig.receiver.toList.map (Receiver.borrow implTy)).map Borrow.kind =
        self.flatMap (·.2.borrows) ∧
      ∀ b ∈ sig.receiver.toList.map (Receiver.borrow implTy),
        Checked b.written := by
    clear htyped hparams
    generalize sig.receiver.toList = receivers at hself ⊢
    induction hself with
    | nil => simp
    | cons hfirst _ ih =>
        obtain ⟨⟨_, -, rfl⟩, hreference⟩ := receiverParam_eq_ok hfirst
        obtain ⟨hkinds, hrest⟩ := ih
        constructor
        · simp only [List.map_cons, hkinds, List.flatMap_cons]
          rfl
        · exact List.forall_mem_cons.mpr
            ⟨Receiver.checked_borrow hreference implTy, hrest⟩
  have hinputs :
      (sig.inputs.flatMap fun input => input.2.borrows).map Borrow.kind =
        typed.flatMap (·.2.borrows) ∧
      ∀ b ∈ sig.inputs.flatMap fun input => input.2.borrows,
        Checked b.written := by
    clear hself hreceiver hparams
    generalize sig.inputs = inputs at htyped ⊢
    induction htyped with
    | nil => simp
    | cons hfirst _ ih =>
        obtain ⟨_, -, -, hclassify⟩ := typedParam_eq_ok hfirst
        obtain ⟨hkinds, hchecked⟩ := classifyParam_borrows hclassify
        obtain ⟨hrestKinds, hrest⟩ := ih
        constructor
        · simp [hkinds, hrestKinds]
        · rw [List.flatMap_cons]
          exact List.forall_mem_append.mpr ⟨hchecked, hrest⟩
  constructor
  · simp only [Signature.borrows, List.map_append, List.flatMap_append,
      hreceiver.1, hinputs.1]
  · exact List.forall_mem_append.mpr ⟨hreceiver.2, hinputs.2⟩

/-- What an accepted item borrows, is as its shim binds it and checked. -/
theorem exportItem_borrows {case : CaseMapping} {pfx : String}
    {item : ExportItem} {f : ExportedFn} {shim : Shim}
    (hitem : exportItem rustNameOf case pfx item = .ok (f, shim)) :
    item.borrows.map Borrow.kind = shim.params.flatMap (·.2.borrows) ∧
      ∀ b ∈ item.borrows, Checked b.written := by
  obtain ⟨⟨selfTy, hparams⟩, hgen⟩ := exportItem_eq_ok hitem
  rw [(genFn_eq_ok hgen).1]
  cases item with
  | free _ _ => exact fnParams_borrows hparams none
  | method selfTy _ => exact fnParams_borrows hparams (some selfTy)

end Accepted

/-! ## The check and what is borrowed -/

/-- No lifetime in the type of what is borrowed has a name. -/
def Borrow.Elided (b : Borrow) : Prop := ∀ w ∈ b.written, w.ident = "_"

/-- None has a name where `reject_named_lifetimes` does not look: in the type
that a path is qualified with, in parenthesized arguments, in generic arguments
that are neither lifetimes nor types, in forms of types that it does not take
apart, and in the type of the `impl` block. -/
def Borrow.UnseenElided (b : Borrow) : Prop :=
  ∀ w ∈ b.written, w.seen = false → w.ident = "_"

instance (b : Borrow) : Decidable b.UnseenElided :=
  inferInstanceAs (Decidable (∀ w ∈ b.written, w.seen = false → w.ident = "_"))

/-- The shim of an accepted item binds the references and callbacks of its
parameters, and none has a named lifetime if and only if none has one that the
check does not see. -/
theorem lifetime_rejection_iff (rustNameOf : Path → Ident)
    (case : CaseMapping) (pfx : String) (item : ExportItem) (f : ExportedFn)
    (shim : Shim)
    (hitem : exportItem rustNameOf case pfx item = .ok (f, shim)) :
    item.borrows.map Borrow.kind = shim.params.flatMap (·.2.borrows) ∧
      ((∀ b ∈ item.borrows, b.Elided) ↔
        ∀ b ∈ item.borrows, b.UnseenElided) := by
  obtain ⟨hbound, hchecked⟩ := exportItem_borrows hitem
  refine ⟨hbound, ?_, ?_⟩
  · exact fun helided b hb w hw _ => helided b hb w hw
  · intro hunseen b hb w hw
    cases hseen : w.seen with
    | true => exact hchecked b hb w hw hseen
    | false => exact hunseen b hb w hw hseen

/-- A type that is one name. -/
def Ty.ofName (ident : Ident) : Ty :=
  .path none (.mk false [] (.mk ident .none))

theorem isName_bag : IsName "Bag" := by decide

theorem isName_str : IsName "str" := by decide

theorem isName_i32 : IsName "i32" := by decide

theorem isName_text : IsName "text" := by decide

theorem isName_new : IsName "new" := by decide

theorem isName_callback : IsName "Callback" := by decide

/-- `fn scan(&'_ self, text: &str, each: Callback<'_, (&str, i32), ()>,
limit: Option<&[u8]>)` on `Bag`. -/
def scanItem : ExportItem :=
  let str : Ty := .ofName ⟨"str", isName_str⟩
  .method (.ofName ⟨"Bag", isName_bag⟩)
    { docs := []
      attrs := []
      sig :=
        { ident := ⟨"scan", by decide⟩
          receiver := some
            { reference := some (some "_"), isMut := false, colonToken := false }
          inputs :=
            [(some ⟨"text", isName_text⟩, .reference none false str),
              (some ⟨"each", by decide⟩,
                .path none (.mk false [] (.mk ⟨"Callback", isName_callback⟩
                  (.angleBracketed
                    [.lifetime "_",
                      .type (.tuple
                        [.reference none false str, .ofName ⟨"i32", isName_i32⟩]),
                      .type (.tuple [])])))),
              (some ⟨"limit", by decide⟩,
                .path none (.mk false [] (.mk ⟨"Option", by decide⟩
                  (.angleBracketed
                    [.type (.reference none false
                      (.slice (.ofName ⟨"u8", by decide⟩)))]))))]
          output := none } }

theorem lifetime_rejection_iff_scan :
    ∃ f shim, exportItem (fun p => p.last.ident) asciiCase "demo_rulisp_"
        scanItem = .ok (f, shim) ∧
      shim.params.flatMap (·.2.borrows) =
        [.handle, .str, .callback, .str, .slice] ∧
      ∀ b ∈ scanItem.borrows, b.Elided := by
  have haccepted : (exportItem (fun p => p.last.ident) asciiCase "demo_rulisp_"
      scanItem).toOption.isSome = true := by decide +kernel
  obtain ⟨⟨f, shim⟩, hitem⟩ := MacroResult.exists_ok haccepted
  obtain ⟨hbound, hiff⟩ := lifetime_rejection_iff _ _ _ _ _ _ hitem
  refine ⟨f, shim, hitem, ?_, hiff.mpr ?_⟩
  · rw [← hbound]
    decide +kernel
  · decide +kernel

/-! ## Lifetimes that the check does not see -/

/-- A free function of one parameter. -/
def takeItem (ty : Ty) : ExportItem :=
  .free []
    { ident := ⟨"take", by decide⟩
      receiver := none
      inputs := [(some ⟨"text", isName_text⟩, ty)]
      output := none }

/-- `Name<args>`. -/
def Ty.generic (ident : Ident) (args : List GenericArgument) : Ty :=
  .path none (.mk false [] (.mk ident (.angleBracketed args)))

/-- `<Bag<'static> as Source>::Callback<(i32,), ()>`. -/
def projectedCallback : Ty :=
  .path (some (.generic ⟨"Bag", isName_bag⟩ [.lifetime "static"]))
    (.mk false [.mk ⟨"Source", by decide⟩ .none]
      (.mk ⟨"Callback", isName_callback⟩
        (.angleBracketed
          [.type (.tuple [.ofName ⟨"i32", isName_i32⟩]), .type (.tuple [])])))

/-- `&Bag<[&'static u8; 3]>`. -/
def arrayReference : Ty :=
  .reference none false
    (.generic ⟨"Bag", isName_bag⟩ [.type (.other ["static"])])

/-- `impl Bag<'static> { fn new(&self) {} }`. -/
def staticImpl : ExportItem :=
  .method (.generic ⟨"Bag", isName_bag⟩ [.lifetime "static"])
    { docs := []
      attrs := []
      sig :=
        { ident := ⟨"new", isName_new⟩
          receiver := some
            { reference := some none, isMut := false, colonToken := false }
          inputs := []
          output := none } }

/-- The macro accepts the item, which borrows with a named lifetime. -/
def ExportItem.Missed (item : ExportItem) : Prop :=
  (∃ f shim, exportItem (fun p => p.last.ident) asciiCase "demo_rulisp_"
    item = .ok (f, shim)) ∧ ∃ b ∈ item.borrows, ¬b.Elided

theorem ExportItem.missed_of_static {item : ExportItem}
    (haccepted : (exportItem (fun p => p.last.ident) asciiCase "demo_rulisp_"
      item).toOption.isSome = true)
    (hstatic : ∃ b ∈ item.borrows, ∃ w ∈ b.written, w.ident = "static") :
    item.Missed := by
  obtain ⟨⟨f, shim⟩, hok⟩ := MacroResult.exists_ok haccepted
  obtain ⟨b, hb, w, hw, hident⟩ := hstatic
  refine ⟨⟨f, shim, hok⟩, b, hb, fun helided => ?_⟩
  rw [helided w hw] at hident
  exact absurd hident (by decide)

/-- Accepted items that borrow with a named lifetime. -/
theorem lifetime_rejection_misses :
    (takeItem projectedCallback).Missed ∧ (takeItem arrayReference).Missed ∧
      staticImpl.Missed := by
  refine ⟨?_, ?_, ?_⟩
  · exact ExportItem.missed_of_static (by decide +kernel) (by decide +kernel)
  · exact ExportItem.missed_of_static (by decide +kernel) (by decide +kernel)
  · exact ExportItem.missed_of_static (by decide +kernel) (by decide +kernel)

end Rulisp
