import Rulisp.ManifestShape
import Rulisp.WrapperForm

/-!
# The shape of types

`parse-manifest` leaves the types of parameters and results as they are;
`wrapper-form` is the first to look into them, and `%doc-type` the second.
Here is which types they accept, and on which ones one of their list and
string operators finds what it cannot work on.
-/

namespace Rulisp

/-! ## The grammar of types -/

/-- `(car rest)` of a list. -/
def Datum.first : Datum → Datum
  | .cons first _ => first
  | _ => .nil

/-- NIL or a cons. -/
def Datum.IsList (datum : Datum) : Prop :=
  datum = .nil ∨ datum.isCons = true

/-- What a callback can be passed. -/
def Datum.IsToken (p : Datum) : Prop :=
  p = .keyword "STRING" ∨ p.assocScalar ≠ none

/-- A key of `+vec-elt-types+`. -/
def Datum.IsElement (token : Datum) : Prop :=
  ∃ name info, token = .keyword name ∧ vecEltTypes.lookup name = some info

/-- What `(&key params result)` takes. -/
def Datum.KeyArguments (args : Datum) : Prop :=
  args.properPlist = true ∧
    if args.lookup "ALLOW-OTHER-KEYS" = .nil then
      ∀ key ∈ args.indicators, key ∈
        [.keyword "PARAMS", .keyword "RESULT", .keyword "ALLOW-OTHER-KEYS"]
    else ∀ key ∈ args.indicators, key.isSymbol = true

structure CallbackType (args : Datum) : Prop where
  keys : args.KeyArguments
  unit : args.lookup "RESULT" = .keyword "UNIT"
  tokens : ∃ tokens, args.lookup "PARAMS" = .ofList tokens ∧
    ∀ p ∈ tokens, p.IsToken

/-- The token is the name of a handle, for `string=`. -/
def NamesHandle (handles : List HandleSpec) (token : Datum) : Prop :=
  ∃ h ∈ handles, token.stringDesignator = some h.rustName

/-- The types of parameters and results alike. -/
inductive ValueType (handles : List HandleSpec) : Datum → Prop
  | string : ValueType handles (.keyword "STRING")
  | bytes : ValueType handles (.keyword "BYTES")
  | scalar {ty : Datum} (hscalar : ty.assocScalar ≠ none) : ValueType handles ty
  | option {rest : Datum} (hlist : rest.IsList)
      (hbool : rest.first ≠ .keyword "BOOL")
      (hinner : rest.first.IsToken ∨ rest.first = .keyword "BYTES") :
      ValueType handles (.cons (.keyword "OPTION") rest)
  | vec {rest : Datum} (hlist : rest.IsList) (helt : rest.first.IsElement) :
      ValueType handles (.cons (.keyword "VEC") rest)
  | handle {rest : Datum} (hlist : rest.IsList)
      (hnamed : NamesHandle handles rest.first) :
      ValueType handles (.cons (.keyword "HANDLE") rest)

inductive ParamType (handles : List HandleSpec) : Datum → Prop
  | value {ty : Datum} (hvalue : ValueType handles ty) : ParamType handles ty
  | callback {args : Datum} (hshape : CallbackType args) :
      ParamType handles (.cons (.keyword "CALLBACK") args)
  | storedCallback {args : Datum} (hshape : CallbackType args) :
      ParamType handles (.cons (.keyword "STORED-CALLBACK") args)

inductive ResultType (handles : List HandleSpec) : Datum → Prop
  | unit : ResultType handles (.keyword "UNIT")
  | value {ty : Datum} (hvalue : ValueType handles ty) : ResultType handles ty

/-! ## What their operators need -/

/-- `second` and `string=` find what they need. -/
def TypeSound (handles : List HandleSpec) (ty : Datum) : Prop :=
  ∀ tag rest, ty = .cons (.keyword tag) rest →
    (tag ∈ ["OPTION", "VEC", "HANDLE"] → rest.IsList) ∧
    (tag = "HANDLE" → handles ≠ [] → rest.first.stringDesignator ≠ none)

/-- Tokens up to the end, or to something else. -/
def Datum.TokensRead : Datum → Prop
  | .nil => True
  | .cons first rest => first.IsToken → rest.TokensRead
  | _ => False

def CallbackSound (ty : Datum) : Prop :=
  ∀ tag args, ty = .cons (.keyword tag) args →
    tag ∈ ["CALLBACK", "STORED-CALLBACK"] →
      args.KeyArguments ∧ (args.lookup "RESULT" = .keyword "UNIT" →
        (args.lookup "PARAMS").TokensRead)

/-- A handle's name is a string, as the docstring needs it. -/
def HandleNamed (ty : Datum) : Prop :=
  ∀ rest, ty = .cons (.keyword "HANDLE") rest →
    ∃ name, rest.first = .string name

/-! ## Scalars, elements and inner types -/

section Parts

theorem scalarCffi_ok_iff {ty : Datum} :
    (∃ cffi, scalarCffi ty = .ok cffi) ↔ ty.assocScalar ≠ none := by
  unfold scalarCffi
  cases ty.assocScalar with
  | none => simp [manifestError]
  | some cffi => simp

theorem tame_scalarCffi (ty : Datum) : Tame (scalarCffi ty) := by
  unfold scalarCffi
  cases ty.assocScalar with
  | none => exact tame_manifestError _
  | some cffi => exact tame_ok cffi

theorem vecEltInfo_ok_iff {token : Datum} :
    (∃ info, vecEltInfo token = .ok info) ↔ token.IsElement := by
  unfold vecEltInfo Datum.IsElement
  cases token with
  | keyword name =>
      simp only [Datum.keyword.injEq, exists_and_left, exists_eq_left']
      cases vecEltTypes.lookup name with
      | none => simp [manifestError]
      | some info => simp
  | _ => simp [manifestError]

theorem tame_vecEltInfo (token : Datum) : Tame (vecEltInfo token) := by
  unfold vecEltInfo
  simp only
  split
  · exact tame_ok _
  · exact tame_manifestError _

variable {tag rest : Datum}

theorem second_of_isList (hlist : rest.IsList) :
    (Datum.cons tag rest).second = .ok rest.first := by
  cases rest with
  | nil => rfl
  | cons first rest => rfl
  | keyword name => simp [Datum.IsList, Datum.isCons] at hlist
  | string value => simp [Datum.IsList, Datum.isCons] at hlist
  | integer value => simp [Datum.IsList, Datum.isCons] at hlist

theorem tame_second : Tame (Datum.cons tag rest).second ↔ rest.IsList := by
  by_cases hlist : rest.IsList
  · rw [second_of_isList hlist]
    exact iff_of_true (tame_ok _) hlist
  · refine iff_of_false ?_ hlist
    cases rest with
    | nil => exact absurd (.inl rfl) hlist
    | cons first rest => exact absurd (.inr rfl) hlist
    | keyword name => exact not_tame_hostError _
    | string value => exact not_tame_hostError _
    | integer value => exact not_tame_hostError _

theorem second_eq_ok {second : Datum} :
    (Datum.cons tag rest).second = .ok second ↔
      rest.IsList ∧ rest.first = second := by
  by_cases hlist : rest.IsList
  · rw [second_of_isList hlist, Except.ok.injEq]
    exact (and_iff_right hlist).symm
  · refine iff_of_false (fun hok => ?_) fun hsecond => hlist hsecond.1
    exact hlist (tame_second.mp (hok ▸ tame_ok second))

theorem tame_optionInner :
    Tame (optionInner (.cons tag rest)) ↔ rest.IsList := by
  simp only [optionInner, tame_bind, tame_second, tame_errorUnless, tame_pure,
    implies_true, and_true]

theorem optionInner_eq_ok {inner : Datum} :
    optionInner (.cons tag rest) = .ok inner ↔
      rest.IsList ∧ rest.first = inner ∧ inner ≠ .keyword "BOOL" := by
  simp only [optionInner, LispResult.bind_eq_ok, second_eq_ok,
    errorUnless_eq_ok]
  constructor
  · rintro ⟨_, ⟨hlist, rfl⟩, _, hbool, ⟨⟩⟩
    exact ⟨hlist, rfl, hbool⟩
  · rintro ⟨hlist, rfl, hbool⟩
    exact ⟨_, ⟨hlist, rfl⟩, (), hbool, rfl⟩

end Parts

/-! ## Handles -/

section Handles

variable {handles : List HandleSpec} {intern : String → LispResult Symbol}
  {token : Datum}

theorem tame_classNameFor [LispCase]
    (hintern : ∀ name, ∃ sym, intern name = .ok sym) :
    Tame (classNameFor handles intern token) ↔
      (handles ≠ [] → token.stringDesignator ≠ none) := by
  unfold classNameFor
  split
  · exact iff_of_true (tame_manifestError _) fun hne => absurd rfl hne
  · rename_i hne hnone
    refine iff_of_false (not_tame_hostError _) fun hsome => ?_
    exact hsome (fun hnil => hne hnil) hnone
  · rename_i handles name hne hname
    refine iff_of_true ?_ fun _ => by rw [hname]; simp
    split
    · rename_i h _
      obtain ⟨sym, hsym⟩ := hintern (stringUpcase h.lispName)
      rw [hsym]
      exact tame_ok sym
    · exact tame_manifestError _

theorem classNameFor_ok_iff [LispCase]
    (hintern : ∀ name, ∃ sym, intern name = .ok sym) :
    (∃ sym, classNameFor handles intern token = .ok sym) ↔
      NamesHandle handles token := by
  constructor
  · rintro ⟨sym, hclass⟩
    obtain ⟨h, hmem, hname, -⟩ := classNameFor_eq_ok hclass
    exact ⟨h, hmem, hname⟩
  · rintro ⟨h, hmem, hname⟩
    unfold classNameFor
    split
    · cases hmem
    · rename_i hnone
      rw [hnone] at hname
      cases hname
    · rename_i handles name _ hname'
      cases hname.symm.trans hname'
      split
      · rename_i found _
        exact hintern (stringUpcase found.lispName)
      · rename_i hnone
        have hdiffers := List.find?_eq_none.mp hnone h hmem
        exact absurd (beq_self_eq_true h.rustName) hdiffers

end Handles

/-! ## Callbacks -/

section Callbacks

/-- The keys are those that `&key` knows. -/
def Datum.knownKeys (args : Datum) : Bool :=
  if args.lookup "ALLOW-OTHER-KEYS" = .nil then
    args.indicators.all ([.keyword "PARAMS", .keyword "RESULT",
      .keyword "ALLOW-OTHER-KEYS"].contains ·)
  else args.indicators.all Datum.isSymbol

theorem destructureCallback_eq (args : Datum) :
    destructureCallback args =
      if (args.properPlist && args.knownKeys) = true then
        .ok (args.lookup "PARAMS", args.lookup "RESULT")
      else hostError .programError :=
  rfl

variable {args : Datum}

theorem keyArguments_iff :
    args.KeyArguments ↔ (args.properPlist && args.knownKeys) = true := by
  unfold Datum.KeyArguments Datum.knownKeys
  rw [Bool.and_eq_true]
  refine and_congr_right fun _ => ?_
  split
  · simp only [List.all_eq_true, List.contains_iff_mem]
  · exact List.all_eq_true.symm

theorem tame_destructureCallback :
    Tame (destructureCallback args) ↔ args.KeyArguments := by
  rw [destructureCallback_eq, keyArguments_iff]
  split
  · rename_i hknown
    exact iff_of_true (tame_ok _) hknown
  · rename_i hunknown
    exact iff_of_false (not_tame_hostError _) hunknown

theorem destructureCallback_eq_ok {parts : Datum × Datum} :
    destructureCallback args = .ok parts ↔
      args.KeyArguments ∧
        (args.lookup "PARAMS", args.lookup "RESULT") = parts := by
  rw [destructureCallback_eq, keyArguments_iff]
  split
  · rename_i hknown
    rw [Except.ok.injEq, and_iff_right hknown]
  · rename_i hunknown
    exact iff_of_false (fun hok => nomatch hok) fun hparts => hunknown hparts.1

variable (message : Datum → Message)

/-- The loop of `%check-callback-shape`. -/
theorem tame_tokens (params : Datum) :
    Tame (params.dolist fun p =>
        errorUnless (p = .keyword "STRING" ∨ p.assocScalar ≠ none)
          (.manifestError (message p))) ↔
      params.TokensRead := by
  induction params with
  | nil => exact iff_of_true (tame_ok ()) trivial
  | cons first rest _ ih =>
      rw [Datum.dolist, tame_bind, Datum.TokensRead, ih, Datum.IsToken]
      simp only [tame_errorUnless, errorUnless_eq_ok, true_and, forall_const]
  | keyword name => exact iff_of_false (not_tame_hostError _) id
  | string value => exact iff_of_false (not_tame_hostError _) id
  | integer value => exact iff_of_false (not_tame_hostError _) id

theorem tokens_eq_ok (params : Datum) {u : Unit} :
    (params.dolist fun p =>
        errorUnless (p = .keyword "STRING" ∨ p.assocScalar ≠ none)
          (.manifestError (message p))) = .ok u ↔
      ∃ tokens, params = .ofList tokens ∧ ∀ p ∈ tokens, p.IsToken := by
  constructor
  · intro hok
    induction params with
    | nil => exact ⟨[], rfl, fun _ hmem => nomatch hmem⟩
    | cons first rest _ ih =>
        obtain ⟨_, hfirst, hrest⟩ := LispResult.bind_eq_ok.mp hok
        obtain ⟨tokens, rfl, htokens⟩ := ih hrest
        rw [errorUnless_eq_ok] at hfirst
        exact ⟨first :: tokens, rfl,
          List.forall_mem_cons.mpr ⟨hfirst, htokens⟩⟩
    | keyword name => cases hok
    | string value => cases hok
    | integer value => cases hok
  · rintro ⟨tokens, rfl, htokens⟩
    induction tokens with
    | nil => rfl
    | cons first tokens ih =>
        obtain ⟨hfirst, hrest⟩ := List.forall_mem_cons.mp htokens
        refine LispResult.bind_eq_ok.mpr ⟨(), ?_, ih hrest⟩
        rw [errorUnless_eq_ok]
        exact hfirst

variable (kind : TrampolineKind) {tag : Datum}

theorem tame_ensureTrampoline :
    Tame (ensureTrampoline kind (.cons tag args)) ↔
      args.KeyArguments ∧ (args.lookup "RESULT" = .keyword "UNIT" →
        (args.lookup "PARAMS").TokensRead) := by
  have hcdr : (Datum.cons tag args).cdr = .ok args := rfl
  simp only [ensureTrampoline, checkCallbackShape, hcdr, tame_bind, tame_ok,
    Except.ok.injEq, forall_eq', true_and, tame_destructureCallback,
    destructureCallback_eq_ok, tame_errorUnless, errorUnless_eq_ok,
    forall_const, tame_tokens, tame_pure, implies_true, and_true]
  refine and_congr_right fun hkeys => ?_
  constructor
  · intro htokens
    exact htokens _ ⟨hkeys, rfl⟩
  · rintro htokens _ ⟨-, rfl⟩
    exact htokens

theorem ensureTrampoline_ok_iff :
    (∃ trampoline, ensureTrampoline kind (.cons tag args) = .ok trampoline) ↔
      CallbackType args := by
  have hcdr : (Datum.cons tag args).cdr = .ok args := rfl
  simp only [ensureTrampoline, checkCallbackShape, hcdr, LispResult.bind_eq_ok,
    Except.ok.injEq, exists_eq_left', destructureCallback_eq_ok,
    errorUnless_eq_ok, tokens_eq_ok]
  constructor
  · rintro ⟨_, _, ⟨_, ⟨hkeys, rfl⟩, _, hunit, _, htokens, -⟩, -⟩
    exact ⟨hkeys, hunit, htokens⟩
  · rintro ⟨hkeys, hunit, htokens⟩
    exact ⟨_, _, ⟨_, ⟨hkeys, rfl⟩, (), hunit, (), htokens, rfl⟩, rfl⟩

end Callbacks

/-! ## Parameters and results -/

section Forms

theorem tagged_cons (tag other : String) (rest : Datum) :
    (Datum.cons (.keyword tag) rest).tagged other = decide (tag = other) := by
  simp [Datum.tagged]

theorem tagged_eq_false {ty : Datum}
    (hother : ∀ tag rest, ty ≠ .cons (.keyword tag) rest) (tag : String) :
    ty.tagged tag = false := by
  unfold Datum.tagged
  split
  · rename_i first rest
    exact decide_eq_false fun hfirst => hother tag rest (by rw [hfirst])
  · rfl

variable {β : Type} {string bytes : β} {scalar : CffiType → β} {inner : Datum}

/-- What both sides do with the inner type of an option. -/
theorem innerForm_ok_iff :
    (∃ form, (if inner = .keyword "STRING" then pure string
      else if inner = .keyword "BYTES" then pure bytes
      else scalarCffi inner >>= fun cffi => pure (scalar cffi) :
        LispResult β) = .ok form) ↔
      inner.IsToken ∨ inner = .keyword "BYTES" := by
  unfold Datum.IsToken
  split
  · rename_i hstring
    exact iff_of_true ⟨string, rfl⟩ (.inl (.inl hstring))
  split
  · rename_i hbytes
    exact iff_of_true ⟨bytes, rfl⟩ (.inr hbytes)
  · rename_i hstring hbytes
    rw [LispResult.bind_pure_ok_iff, scalarCffi_ok_iff]
    simp only [hstring, hbytes, false_or, or_false]

theorem tame_innerForm :
    Tame (if inner = .keyword "STRING" then pure string
      else if inner = .keyword "BYTES" then pure bytes
      else scalarCffi inner >>= fun cffi => pure (scalar cffi) :
        LispResult β) := by
  split
  · exact tame_pure _
  split
  · exact tame_pure _
  · exact tame_bind_pure.mpr (tame_scalarCffi inner)

variable {handles : List HandleSpec} {intern : String → LispResult Symbol}

theorem valueType_tagged {tag : String} {rest : Datum} :
    ValueType handles (.cons (.keyword tag) rest) ↔
      tag = "OPTION" ∧ rest.IsList ∧ rest.first ≠ .keyword "BOOL" ∧
          (rest.first.IsToken ∨ rest.first = .keyword "BYTES") ∨
        tag = "VEC" ∧ rest.IsList ∧ rest.first.IsElement ∨
        tag = "HANDLE" ∧ rest.IsList ∧ NamesHandle handles rest.first := by
  constructor
  · intro htype
    cases htype with
    | scalar hscalar => exact absurd rfl hscalar
    | option hlist hbool hinner => exact .inl ⟨rfl, hlist, hbool, hinner⟩
    | vec hlist helt => exact .inr (.inl ⟨rfl, hlist, helt⟩)
    | handle hlist hnamed => exact .inr (.inr ⟨rfl, hlist, hnamed⟩)
  · rintro (⟨rfl, hlist, hbool, hinner⟩ | ⟨rfl, hlist, helt⟩ |
      ⟨rfl, hlist, hnamed⟩)
    · exact .option hlist hbool hinner
    · exact .vec hlist helt
    · exact .handle hlist hnamed

theorem valueType_untagged {ty : Datum}
    (hother : ∀ tag rest, ty ≠ .cons (.keyword tag) rest) :
    ValueType handles ty ↔
      ty = .keyword "STRING" ∨ ty = .keyword "BYTES" ∨
        ty.assocScalar ≠ none := by
  constructor
  · intro htype
    cases htype with
    | string => exact .inl rfl
    | bytes => exact .inr (.inl rfl)
    | scalar hscalar => exact .inr (.inr hscalar)
    | option _ _ _ => exact absurd rfl (hother _ _)
    | vec _ _ => exact absurd rfl (hother _ _)
    | handle _ _ => exact absurd rfl (hother _ _)
  · rintro (rfl | rfl | hscalar)
    · exact .string
    · exact .bytes
    · exact .scalar hscalar

theorem paramType_tagged {tag : String} {rest : Datum} :
    ParamType handles (.cons (.keyword tag) rest) ↔
      ValueType handles (.cons (.keyword tag) rest) ∨
        (tag = "CALLBACK" ∨ tag = "STORED-CALLBACK") ∧ CallbackType rest := by
  constructor
  · intro htype
    cases htype with
    | value hvalue => exact .inl hvalue
    | callback hshape => exact .inr ⟨.inl rfl, hshape⟩
    | storedCallback hshape => exact .inr ⟨.inr rfl, hshape⟩
  · rintro (hvalue | ⟨rfl | rfl, hshape⟩)
    · exact .value hvalue
    · exact .callback hshape
    · exact .storedCallback hshape

theorem paramType_untagged {ty : Datum}
    (hother : ∀ tag rest, ty ≠ .cons (.keyword tag) rest) :
    ParamType handles ty ↔ ValueType handles ty := by
  constructor
  · intro htype
    cases htype with
    | value hvalue => exact hvalue
    | callback _ => exact absurd rfl (hother _ _)
    | storedCallback _ => exact absurd rfl (hother _ _)
  · exact .value

/-- A handle's token and its class. -/
theorem handleForm_ok_iff [LispCase]
    (hintern : ∀ name, ∃ sym, intern name = .ok sym)
    {make : Datum → Symbol → β} {tag rest : Datum} :
    (∃ form, ((Datum.cons tag rest).second >>= fun rustName =>
      classNameFor handles intern rustName >>= fun cls =>
        pure (make rustName cls) : LispResult β) = .ok form) ↔
      rest.IsList ∧ NamesHandle handles rest.first := by
  rw [← classNameFor_ok_iff hintern]
  simp only [LispResult.bind_eq_ok, second_eq_ok]
  constructor
  · rintro ⟨_, _, ⟨hlist, rfl⟩, cls, hcls, -⟩
    exact ⟨hlist, cls, hcls⟩
  · rintro ⟨hlist, cls, hcls⟩
    exact ⟨_, _, ⟨hlist, rfl⟩, cls, hcls, rfl⟩

theorem tame_handleForm [LispCase]
    (hintern : ∀ name, ∃ sym, intern name = .ok sym)
    {make : Datum → Symbol → β} {tag rest : Datum} :
    Tame ((Datum.cons tag rest).second >>= fun rustName =>
      classNameFor handles intern rustName >>= fun cls =>
        pure (make rustName cls) : LispResult β) ↔
      rest.IsList ∧ (handles ≠ [] → rest.first.stringDesignator ≠ none) := by
  simp only [tame_bind, tame_second, second_eq_ok, tame_classNameFor hintern,
    tame_pure, implies_true, and_true]
  refine and_congr_right fun hlist => ?_
  constructor
  · intro hclass
    exact hclass _ ⟨hlist, rfl⟩
  · rintro hclass _ ⟨-, rfl⟩
    exact hclass

theorem vecForm_ok_iff {make : VecEltInfo → β} {tag rest : Datum} :
    (∃ form, ((Datum.cons tag rest).second >>= fun token =>
      vecEltInfo token >>= fun info => pure (make info) :
        LispResult β) = .ok form) ↔
      rest.IsList ∧ rest.first.IsElement := by
  rw [← vecEltInfo_ok_iff]
  simp only [LispResult.bind_eq_ok, second_eq_ok]
  constructor
  · rintro ⟨_, _, ⟨hlist, rfl⟩, info, hinfo, -⟩
    exact ⟨hlist, info, hinfo⟩
  · rintro ⟨hlist, info, hinfo⟩
    exact ⟨_, _, ⟨hlist, rfl⟩, info, hinfo, rfl⟩

theorem tame_vecForm {make : VecEltInfo → β} {tag rest : Datum} :
    Tame ((Datum.cons tag rest).second >>= fun token =>
      vecEltInfo token >>= fun info => pure (make info) : LispResult β) ↔
      rest.IsList := by
  simp only [tame_bind, tame_second, tame_vecEltInfo, tame_pure, implies_true,
    and_true]

theorem optionForm_ok_iff {tag rest : Datum} {scalarOf : Datum → CffiType → β} :
    (∃ form, (optionInner (.cons tag rest) >>= fun inner =>
      if inner = .keyword "STRING" then pure string
      else if inner = .keyword "BYTES" then pure bytes
      else scalarCffi inner >>= fun cffi => pure (scalarOf inner cffi) :
        LispResult β) = .ok form) ↔
      rest.IsList ∧ rest.first ≠ .keyword "BOOL" ∧
        (rest.first.IsToken ∨ rest.first = .keyword "BYTES") := by
  rw [← @innerForm_ok_iff β string bytes (scalarOf rest.first) rest.first]
  simp only [@LispResult.bind_eq_ok Datum, optionInner_eq_ok]
  constructor
  · rintro ⟨form, _, ⟨hlist, rfl, hbool⟩, hform⟩
    exact ⟨hlist, hbool, form, hform⟩
  · rintro ⟨hlist, hbool, form, hform⟩
    exact ⟨form, _, ⟨hlist, rfl, hbool⟩, hform⟩

theorem tame_optionForm {tag rest : Datum} {scalarOf : Datum → CffiType → β} :
    Tame (optionInner (.cons tag rest) >>= fun inner =>
      if inner = .keyword "STRING" then pure string
      else if inner = .keyword "BYTES" then pure bytes
      else scalarCffi inner >>= fun cffi => pure (scalarOf inner cffi) :
        LispResult β) ↔ rest.IsList := by
  rw [tame_bind, tame_optionInner]
  exact and_iff_left fun _ _ => tame_innerForm

theorem trampolineForm_ok_iff {kind : TrampolineKind} {make : Trampoline → β}
    {tag args : Datum} :
    (∃ form, (ensureTrampoline kind (.cons tag args) >>= fun trampoline =>
      pure (make trampoline) : LispResult β) = .ok form) ↔
      CallbackType args := by
  rw [LispResult.bind_pure_ok_iff, ensureTrampoline_ok_iff]

theorem scalarForm_ok_iff {ty : Datum} :
    (∃ form, (scalarCffi ty >>= fun cffi => pure (scalar cffi) :
      LispResult β) = .ok form) ↔ ty.assocScalar ≠ none := by
  rw [LispResult.bind_pure_ok_iff, scalarCffi_ok_iff]

theorem paramForm_ok_iff [LispCase]
    (hintern : ∀ name, ∃ sym, intern name = .ok sym)
    (ty : Datum) :
    (∃ form, paramForm (classNameFor handles intern) ty = .ok form) ↔
      ParamType handles ty := by
  by_cases htagged : ∃ tag rest, ty = .cons (.keyword tag) rest
  · obtain ⟨tag, rest, rfl⟩ := htagged
    rw [paramType_tagged, valueType_tagged]
    unfold paramForm
    simp only [Datum.optionTypeP, Datum.vecTypeP, Datum.handleTypeP,
      Datum.callbackTypeP, Datum.storedCallbackTypeP, tagged_cons,
      decide_eq_true_eq, reduceCtorEq, if_false]
    split
    · rename_i htag
      subst htag
      rw [optionForm_ok_iff]
      simp only [String.reduceEq, false_and, or_false, true_and]
    split
    · rename_i htag
      subst htag
      rw [vecForm_ok_iff]
      simp only [String.reduceEq, false_and, or_false, false_or, true_and]
    split
    · rename_i htag
      subst htag
      rw [handleForm_ok_iff hintern]
      simp only [String.reduceEq, false_and, or_false, false_or, true_and]
    split
    · rename_i htag
      subst htag
      rw [trampolineForm_ok_iff]
      simp only [String.reduceEq, false_and, or_false, false_or, true_and]
    split
    · rename_i htag
      subst htag
      rw [trampolineForm_ok_iff]
      simp only [String.reduceEq, false_and, or_true, false_or, true_and]
    · rename_i hoption hvec hhandle hcallback hstored
      rw [scalarForm_ok_iff]
      simp only [hoption, hvec, hhandle, hcallback, hstored, false_and,
        or_false]
      exact iff_of_false (fun hscalar => hscalar rfl) id
  · have hother : ∀ tag rest, ty ≠ .cons (.keyword tag) rest :=
      fun tag rest hty => htagged ⟨tag, rest, hty⟩
    rw [paramType_untagged hother, valueType_untagged hother]
    unfold paramForm
    simp only [Datum.optionTypeP, Datum.vecTypeP, Datum.handleTypeP,
      Datum.callbackTypeP, Datum.storedCallbackTypeP, tagged_eq_false hother,
      Bool.false_eq_true, if_false]
    split
    · rename_i hstring
      exact iff_of_true ⟨_, rfl⟩ (.inl hstring)
    split
    · rename_i hbytes
      exact iff_of_true ⟨_, rfl⟩ (.inr (.inl hbytes))
    · rename_i hstring hbytes
      rw [scalarForm_ok_iff]
      simp only [hstring, hbytes, false_or]

theorem typeSound_tagged {tag : String} {rest : Datum} :
    TypeSound handles (.cons (.keyword tag) rest) ↔
      (tag ∈ ["OPTION", "VEC", "HANDLE"] → rest.IsList) ∧
      (tag = "HANDLE" → handles ≠ [] →
        rest.first.stringDesignator ≠ none) := by
  constructor
  · intro hsound
    exact hsound tag rest rfl
  · rintro hsound _ _ ⟨⟩
    exact hsound

theorem callbackSound_tagged {tag : String} {args : Datum} :
    CallbackSound (.cons (.keyword tag) args) ↔
      (tag ∈ ["CALLBACK", "STORED-CALLBACK"] →
        args.KeyArguments ∧ (args.lookup "RESULT" = .keyword "UNIT" →
          (args.lookup "PARAMS").TokensRead)) := by
  constructor
  · intro hsound
    exact hsound tag args rfl
  · rintro hsound _ _ ⟨⟩
    exact hsound

theorem tame_scalarForm (ty : Datum) :
    Tame (scalarCffi ty >>= fun cffi => pure (scalar cffi) : LispResult β) :=
  tame_bind_pure.mpr (tame_scalarCffi ty)

theorem tame_trampolineForm {kind : TrampolineKind} {make : Trampoline → β}
    {tag args : Datum} :
    Tame (ensureTrampoline kind (.cons tag args) >>= fun trampoline =>
      pure (make trampoline) : LispResult β) ↔
      args.KeyArguments ∧ (args.lookup "RESULT" = .keyword "UNIT" →
        (args.lookup "PARAMS").TokensRead) := by
  rw [tame_bind_pure, tame_ensureTrampoline]

theorem tame_paramForm [LispCase]
    (hintern : ∀ name, ∃ sym, intern name = .ok sym)
    (ty : Datum) :
    Tame (paramForm (classNameFor handles intern) ty) ↔
      TypeSound handles ty ∧ CallbackSound ty := by
  by_cases htagged : ∃ tag rest, ty = .cons (.keyword tag) rest
  · obtain ⟨tag, rest, rfl⟩ := htagged
    rw [typeSound_tagged, callbackSound_tagged]
    unfold paramForm
    simp only [Datum.optionTypeP, Datum.vecTypeP, Datum.handleTypeP,
      Datum.callbackTypeP, Datum.storedCallbackTypeP, tagged_cons,
      decide_eq_true_eq, reduceCtorEq, if_false]
    split
    · rename_i htag
      subst htag
      rw [tame_optionForm]
      simp
    split
    · rename_i htag
      subst htag
      rw [tame_vecForm]
      simp
    split
    · rename_i htag
      subst htag
      rw [tame_handleForm hintern]
      simp
    split
    · rename_i htag
      subst htag
      rw [tame_trampolineForm]
      simp
    split
    · rename_i htag
      subst htag
      rw [tame_trampolineForm]
      simp
    · rename_i hoption hvec hhandle hcallback hstored
      refine iff_of_true (tame_scalarForm _) ?_
      simp [hoption, hvec, hhandle, hcallback, hstored]
  · have hother : ∀ tag rest, ty ≠ .cons (.keyword tag) rest :=
      fun tag rest hty => htagged ⟨tag, rest, hty⟩
    refine iff_of_true ?_ ⟨fun tag rest hty => absurd hty (hother tag rest),
      fun tag rest hty => absurd hty (hother tag rest)⟩
    unfold paramForm
    simp only [Datum.optionTypeP, Datum.vecTypeP, Datum.handleTypeP,
      Datum.callbackTypeP, Datum.storedCallbackTypeP, tagged_eq_false hother,
      Bool.false_eq_true, if_false]
    split
    · exact tame_pure _
    split
    · exact tame_pure _
    · exact tame_scalarForm _

theorem resultForm_ok_iff [LispCase]
    (hintern : ∀ name, ∃ sym, intern name = .ok sym)
    (ty : Datum) :
    (∃ form, resultForm (classNameFor handles intern) ty = .ok form) ↔
      ResultType handles ty := by
  by_cases htagged : ∃ tag rest, ty = .cons (.keyword tag) rest
  · obtain ⟨tag, rest, rfl⟩ := htagged
    have hvalue : ResultType handles (.cons (.keyword tag) rest) ↔
        ValueType handles (.cons (.keyword tag) rest) :=
      ⟨fun htype => by cases htype; assumption, .value⟩
    rw [hvalue, valueType_tagged]
    unfold resultForm
    simp only [Datum.optionTypeP, Datum.vecTypeP, Datum.handleTypeP,
      tagged_cons, decide_eq_true_eq, reduceCtorEq, if_false]
    split
    · rename_i htag
      subst htag
      rw [handleForm_ok_iff hintern]
      simp only [String.reduceEq, false_and, false_or, true_and]
    split
    · rename_i htag
      subst htag
      rw [optionForm_ok_iff]
      simp only [String.reduceEq, false_and, or_false, true_and]
    split
    · rename_i htag
      subst htag
      rw [vecForm_ok_iff]
      simp only [String.reduceEq, false_and, or_false, false_or, true_and]
    · rename_i hhandle hoption hvec
      rw [scalarForm_ok_iff]
      simp only [hoption, hvec, hhandle, false_and, or_false]
      exact iff_of_false (fun hscalar => hscalar rfl) id
  · have hother : ∀ tag rest, ty ≠ .cons (.keyword tag) rest :=
      fun tag rest hty => htagged ⟨tag, rest, hty⟩
    have hresult : ResultType handles ty ↔
        ty = .keyword "UNIT" ∨ ValueType handles ty := by
      constructor
      · rintro (_ | hvalue)
        · exact .inl rfl
        · exact .inr hvalue
      · rintro (rfl | hvalue)
        · exact .unit
        · exact .value hvalue
    rw [hresult, valueType_untagged hother]
    unfold resultForm
    simp only [Datum.optionTypeP, Datum.vecTypeP, Datum.handleTypeP,
      tagged_eq_false hother, Bool.false_eq_true, if_false]
    split
    · rename_i hunit
      exact iff_of_true ⟨_, rfl⟩ (.inl hunit)
    split
    · rename_i hstring
      exact iff_of_true ⟨_, rfl⟩ (.inr (.inl hstring))
    split
    · rename_i hbytes
      exact iff_of_true ⟨_, rfl⟩ (.inr (.inr (.inl hbytes)))
    split
    · rename_i hbool
      refine iff_of_true ⟨_, rfl⟩ (.inr (.inr (.inr ?_)))
      rw [hbool]
      exact nofun
    · rename_i hunit hstring hbytes hbool
      rw [scalarForm_ok_iff]
      simp only [hunit, hstring, hbytes, false_or]

theorem tame_resultForm [LispCase]
    (hintern : ∀ name, ∃ sym, intern name = .ok sym)
    (ty : Datum) :
    Tame (resultForm (classNameFor handles intern) ty) ↔
      TypeSound handles ty := by
  by_cases htagged : ∃ tag rest, ty = .cons (.keyword tag) rest
  · obtain ⟨tag, rest, rfl⟩ := htagged
    rw [typeSound_tagged]
    unfold resultForm
    simp only [Datum.optionTypeP, Datum.vecTypeP, Datum.handleTypeP,
      tagged_cons, decide_eq_true_eq, reduceCtorEq, if_false]
    split
    · rename_i htag
      subst htag
      rw [tame_handleForm hintern]
      simp
    split
    · rename_i htag
      subst htag
      rw [tame_optionForm]
      simp
    split
    · rename_i htag
      subst htag
      rw [tame_vecForm]
      simp
    · rename_i hhandle hoption hvec
      refine iff_of_true (tame_scalarForm _) ?_
      simp [hoption, hvec, hhandle]
  · have hother : ∀ tag rest, ty ≠ .cons (.keyword tag) rest :=
      fun tag rest hty => htagged ⟨tag, rest, hty⟩
    refine iff_of_true ?_ fun tag rest hty => absurd hty (hother tag rest)
    unfold resultForm
    simp only [Datum.optionTypeP, Datum.vecTypeP, Datum.handleTypeP,
      tagged_eq_false hother, Bool.false_eq_true, if_false]
    split
    · exact tame_pure _
    split
    · exact tame_pure _
    split
    · exact tame_pure _
    split
    · exact tame_pure _
    · exact tame_scalarForm _

end Forms

end Rulisp
