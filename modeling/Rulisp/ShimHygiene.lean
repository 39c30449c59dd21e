import Rulisp.LifetimeRejection

/-!
# Names in a shim

The identifiers of a shim are made from the user's by suffixes and stand
beside fixed ones, without macro hygiene, and `Ok`, `Err`, `Some` and `None`
are written without a path.  Here the body of a shim is the names it reads and
binds, in order, and each name resolves to the last binding of it, else to the
module's function and else to the prelude, as in Rust.  The result says which
names go wrong.
-/

namespace Rulisp

/-! ## Scopes -/

/-- What a name in a shim is meant to be. -/
inductive Binding
  /-- A parameter of the extern function: which slot of which parameter. -/
  | slot (param slot : ℕ)
  | outSlot (slot : ℕ)
  | frame
  /-- The local that a prelude binds. -/
  | argument (param : ℕ)
  | value | pointer | length | inner | error
  /-- The exported function, in its module. -/
  | function
  deriving DecidableEq, Repr

def preludeVariants : List String := ["Ok", "Err", "Some", "None"]

inductive BodyStep
  | use (name : String) (meaning : Binding)
  /-- One of `preludeVariants`. -/
  | variant (name : String)
  | bind (name : String) (binding : Binding)
  deriving DecidableEq, Repr

abbrev Scope := String → Option Binding

def Scope.bind (scope : Scope) (name : String) (binding : Binding) : Scope :=
  fun other => if other = name then some binding else scope other

/-- Every name means what it is meant to be. -/
def Resolves : Scope → List BodyStep → Prop
  | _, [] => True
  | scope, .use name meaning :: rest =>
      scope name = some meaning ∧ Resolves scope rest
  | scope, .variant name :: rest => scope name = none ∧ Resolves scope rest
  -- a variant's name is a pattern for the variant and binds nothing
  | scope, .bind name binding :: rest =>
      name ∉ preludeVariants ∧ Resolves (scope.bind name binding) rest

instance decidableResolves : ∀ (scope : Scope) (steps : List BodyStep),
    Decidable (Resolves scope steps)
  | _, [] => .isTrue trivial
  | scope, .use name meaning :: rest =>
      haveI := decidableResolves scope rest
      inferInstanceAs (Decidable (scope name = some meaning ∧ Resolves scope rest))
  | scope, .variant name :: rest =>
      haveI := decidableResolves scope rest
      inferInstanceAs (Decidable (scope name = none ∧ Resolves scope rest))
  | scope, .bind name binding :: rest =>
      haveI := decidableResolves (scope.bind name binding) rest
      inferInstanceAs (Decidable
        (name ∉ preludeVariants ∧ Resolves (scope.bind name binding) rest))

def Scope.after : Scope → List BodyStep → Scope
  | scope, [] => scope
  | scope, .bind name binding :: rest => (scope.bind name binding).after rest
  | scope, _ :: rest => scope.after rest

theorem resolves_append (scope : Scope) (steps more : List BodyStep) :
    Resolves scope (steps ++ more) ↔
      Resolves scope steps ∧ Resolves (scope.after steps) more := by
  induction steps generalizing scope with
  | nil => simp [Resolves, Scope.after]
  | cons step rest ih =>
      cases step with
      | use name meaning => simp [Resolves, Scope.after, ih, and_assoc]
      | variant name => simp [Resolves, Scope.after, ih, and_assoc]
      | bind name binding => simp [Resolves, Scope.after, ih, and_assoc]

theorem after_append (scope : Scope) (steps more : List BodyStep) :
    scope.after (steps ++ more) = (scope.after steps).after more := by
  induction steps generalizing scope with
  | nil => rfl
  | cons step rest ih => cases step <;> exact ih _

/-- Names that are read, with what they are meant to be. -/
def useSteps (reads : List (String × Binding)) : List BodyStep :=
  reads.map fun (name, meaning) => .use name meaning

@[simp] theorem resolves_useSteps (scope : Scope)
    (reads : List (String × Binding)) :
    Resolves scope (useSteps reads) ↔
      ∀ read ∈ reads, scope read.1 = some read.2 := by
  induction reads with
  | nil => simp [useSteps, Resolves]
  | cons read rest ih =>
      rw [List.forall_mem_cons, ← ih]
      rfl

@[simp] theorem after_useSteps (scope : Scope)
    (reads : List (String × Binding)) : scope.after (useSteps reads) = scope := by
  induction reads with
  | nil => rfl
  | cons read rest ih => exact ih

def variantSteps (names : List String) : List BodyStep := names.map .variant

@[simp] theorem resolves_variantSteps (scope : Scope) (names : List String) :
    Resolves scope (variantSteps names) ↔ ∀ name ∈ names, scope name = none := by
  induction names with
  | nil => simp [variantSteps, Resolves]
  | cons name rest ih =>
      rw [List.forall_mem_cons, ← ih]
      rfl

@[simp] theorem after_variantSteps (scope : Scope) (names : List String) :
    scope.after (variantSteps names) = scope := by
  induction names with
  | nil => rfl
  | cons name rest ih => exact ih

/-! ## The body of a shim -/

/-- An identifier without `r#`, which is no part of it. -/
def unraw (ident : String) : String :=
  match ident.toList with
  | 'r' :: '#' :: rest => .ofList rest
  | _ => ident

/-- The identifier of a parameter in the shim. -/
def paramIdent (p : String × PTy) : String := unraw (shimIdent p.1)

/-- What the prelude of parameter `i` reads. -/
def PTy.reads (i : ℕ) (ident : String) : PTy → List (String × Binding)
  | .scalar _ | .bool => []
  | .strRef | .bytesRef | .vecScalar _ =>
      [("__frame", .frame), (ident ++ "_ptr", .slot i 0),
        (ident ++ "_len", .slot i 1)]
  | .optionScalar _ => [(ident ++ "_present", .slot i 0), (ident, .slot i 1)]
  | .optionStr | .optionBytes =>
      [(ident ++ "_present", .slot i 0), ("__frame", .frame),
        (ident ++ "_ptr", .slot i 1), (ident ++ "_len", .slot i 2)]
  | .handleRef _ => [("__frame", .frame), (ident, .slot i 0)]
  | .callback _ =>
      [("__frame", .frame), (ident, .slot i 0),
        (ident ++ "_userdata", .slot i 1)]
  | .storedCallback _ => [(ident, .slot i 0), (ident ++ "_userdata", .slot i 1)]

/-- The variants in the prelude of a parameter. -/
def PTy.variants : PTy → List String
  | .strRef => ["Ok", "Err"]
  | .optionScalar _ | .optionBytes => ["Some", "None"]
  | .optionStr => ["Ok", "Some", "Err", "None"]
  | _ => []

/-- The prelude rebinds the identifier. -/
def PTy.binds : PTy → Bool
  | .scalar _ | .bool => false
  | _ => true

def PTy.prelude (i : ℕ) (ident : String) (pty : PTy) : List BodyStep :=
  variantSteps pty.variants ++
    (useSteps (pty.reads i ident) ++
      if pty.binds then [.bind ident (.argument i)] else [])

/-- `preludes`, from parameter `i` on. -/
def preludes : ℕ → List (String × PTy) → List BodyStep
  | _, [] => []
  | i, p :: rest => p.2.prelude i (paramIdent p) ++ preludes (i + 1) rest

/-- What is passed to the user's function, the receiver included. -/
def PTy.passed (i : ℕ) (pty : PTy) : Binding :=
  if pty.binds then .argument i else .slot i 0

def passedFrom : ℕ → List (String × PTy) → List (String × Binding)
  | _, [] => []
  | i, p :: rest => (paramIdent p, p.2.passed i) :: passedFrom (i + 1) rest

/-- The call target.  A method is looked up on `this`, a constructor in its
type. -/
def CallKind.target : CallKind → List BodyStep
  | .free ident => [.use (unraw ident) .function]
  | .method _ | .ctor _ _ => []

/-- What the export adds to the names of its module. -/
def CallKind.items : CallKind → List (String × Binding)
  | .free ident => [(unraw ident, .function)]
  | .method _ | .ctor _ _ => []

/-- The ways through `write_ok`.  Its pattern `None`, after `Some`, is for the
rest even where a function hides the variant. -/
def RTy.writes : RTy → List (List BodyStep)
  | .unit => [[.use "__v" .value]]
  | .scalar _ | .bool | .handle _ =>
      [[.use "out" (.outSlot 0), .use "__v" .value]]
  | .str | .bytes | .vecScalar _ =>
      [[.use "__v" .value, .bind "__p" .pointer, .bind "__l" .length,
        .use "out_ptr" (.outSlot 0), .use "__p" .pointer,
        .use "out_len" (.outSlot 1), .use "__l" .length]]
  | .optionScalar _ =>
      [[.use "__v" .value, .variant "Some", .bind "__x" .inner,
          .use "some_out" (.outSlot 0), .use "out" (.outSlot 1),
          .use "__x" .inner],
        [.use "__v" .value, .use "some_out" (.outSlot 0)]]
  | .optionStr =>
      [[.use "__v" .value, .variant "Some", .bind "__s" .inner,
          .use "__s" .inner, .bind "__p" .pointer, .bind "__l" .length,
          .use "some_out" (.outSlot 0), .use "out_ptr" (.outSlot 1),
          .use "__p" .pointer, .use "out_len" (.outSlot 2),
          .use "__l" .length],
        [.use "__v" .value, .use "some_out" (.outSlot 0)]]
  | .optionBytes =>
      [[.use "__v" .value, .variant "Some", .bind "__b" .inner,
          .use "__b" .inner, .bind "__p" .pointer, .bind "__l" .length,
          .use "some_out" (.outSlot 0), .use "out_ptr" (.outSlot 1),
          .use "__p" .pointer, .use "out_len" (.outSlot 2),
          .use "__l" .length],
        [.use "__v" .value, .use "some_out" (.outSlot 0)]]

/-- The ways on from the call: a value, and an `Err` of a fallible
function. -/
def Shim.tails (shim : Shim) : List (List BodyStep) :=
  match shim.error with
  | none => shim.result.writes.map (.bind "__v" .value :: ·)
  | some _ =>
      [.variant "Err", .bind "__e" .error, .use "__e" .error] ::
        shim.result.writes.map fun write =>
          .variant "Ok" :: .bind "__v" .value :: write

/-- The body up to and with the call. -/
def Shim.upToCall (shim : Shim) : List BodyStep :=
  .bind "__frame" .frame :: preludes 0 shim.params ++
    (shim.call.target ++ useSteps (passedFrom 0 shim.params))

def Shim.paths (shim : Shim) : List (List BodyStep) :=
  shim.tails.map (shim.upToCall ++ ·)

/-- The parameters of the extern function, from parameter `i` on. -/
def slotsFrom : ℕ → List (String × PTy) → List (String × Binding)
  | _, [] => []
  | i, p :: rest =>
      (p.2.slots (paramIdent p)).zipIdx.map
        (fun (slot, k) => (slot.1, .slot i k)) ++ slotsFrom (i + 1) rest

def outEntries (result : RTy) : List (String × Binding) :=
  result.outSlots.zipIdx.map fun (slot, k) => (slot.1, .outSlot k)

def Shim.scope (shim : Shim) : Scope :=
  fun name =>
    ((slotsFrom 0 shim.params ++ outEntries shim.result).lookup name).or
      (shim.call.items.lookup name)

/-- The variant that `gen_meta_const` writes for the error, beside the shim. -/
def Shim.metaVariant (shim : Shim) : String :=
  match shim.error with
  | none => "None"
  | some _ => "Some"

/-- The identifiers in the extern function's parameter list. -/
def Shim.externNames (shim : Shim) : List String :=
  (shim.externParams ++ shim.outParams).map fun slot => unraw slot.1

/-- The parameters are distinct, and every name in the body and in the
constant beside it is the one it should be. -/
structure Shim.Hygienic (shim : Shim) : Prop where
  distinct : shim.externNames.Nodup
  bindable : ∀ name ∈ shim.externNames, name ∉ preludeVariants
  resolves : ∀ path ∈ shim.paths, Resolves shim.scope path
  constant : shim.call.items.lookup shim.metaVariant = none

theorem Shim.hygienic_iff {shim : Shim} :
    shim.Hygienic ↔ shim.externNames.Nodup ∧
      (∀ name ∈ shim.externNames, name ∉ preludeVariants) ∧
      (∀ path ∈ shim.paths, Resolves shim.scope path) ∧
      shim.call.items.lookup shim.metaVariant = none :=
  ⟨fun ⟨hdistinct, hbindable, hresolves, hconstant⟩ =>
      ⟨hdistinct, hbindable, hresolves, hconstant⟩,
    fun ⟨hdistinct, hbindable, hresolves, hconstant⟩ =>
      ⟨hdistinct, hbindable, hresolves, hconstant⟩⟩

instance (shim : Shim) : Decidable shim.Hygienic :=
  decidable_of_iff _ Shim.hygienic_iff.symm

/-! ## The condition on names -/

/-- The suffixes of a parameter's slots. -/
def PTy.suffixes : PTy → List String
  | .scalar _ | .bool | .handleRef _ => []
  | .strRef | .bytesRef | .vecScalar _ => ["_ptr", "_len"]
  | .optionScalar _ => ["_present"]
  | .optionStr | .optionBytes => ["_present", "_ptr", "_len"]
  | .callback _ | .storedCallback _ => ["_userdata"]

/-- A slot has the identifier itself. -/
def PTy.ownsName : PTy → Bool
  | .strRef | .bytesRef | .vecScalar _ | .optionStr | .optionBytes => false
  | _ => true

/-- The prelude reads `__frame`. -/
def PTy.usesFrame : PTy → Bool
  | .scalar _ | .bool | .optionScalar _ | .storedCallback _ => false
  | _ => true

/-- Parameters of which the first stands before the second. -/
structure ParamsApart (p q : String × PTy) : Prop where
  idents : paramIdent p ≠ paramIdent q
  before : ∀ suffix ∈ q.2.suffixes, paramIdent p ≠ paramIdent q ++ suffix
  after : q.2.ownsName = true →
    ∀ suffix ∈ p.2.suffixes, paramIdent q ≠ paramIdent p ++ suffix
  frame : paramIdent p = "__frame" → q.2.usesFrame = false

/-- The variants in the success and the failure of a call. -/
def Shim.tailVariants (shim : Shim) : List String :=
  (match shim.result with
    | .optionScalar _ | .optionStr | .optionBytes => ["Some"]
    | _ => []) ++
  match shim.error with
    | none => []
    | some _ => ["Ok", "Err"]

structure Shim.NamesApart (shim : Shim) : Prop where
  variants : ∀ p ∈ shim.params, paramIdent p ∉ preludeVariants
  params : shim.params.Pairwise ParamsApart
  frame : ∀ p ∈ shim.params, p.2.ownsName = true → paramIdent p ≠ "__frame"
  out : ∀ p ∈ shim.params, ∀ slot ∈ shim.result.outSlots,
    slot.1 ≠ paramIdent p ∧
      ∀ suffix ∈ p.2.suffixes, slot.1 ≠ paramIdent p ++ suffix
  target : ∀ ident, shim.call = .free ident →
    unraw ident ≠ "__frame" ∧
    (∀ slot ∈ shim.result.outSlots, unraw ident ≠ slot.1) ∧
    (∀ p ∈ shim.params, unraw ident ≠ paramIdent p ∧
      (∀ suffix ∈ p.2.suffixes, unraw ident ≠ paramIdent p ++ suffix) ∧
      unraw ident ∉ p.2.variants) ∧
    unraw ident ∉ shim.tailVariants ∧ unraw ident ≠ shim.metaVariant

/-! ## Identifiers and suffixes -/

def slotSuffixes : List String := ["_ptr", "_len", "_present", "_userdata"]

theorem PTy.suffixes_subset (pty : PTy) :
    ∀ suffix ∈ pty.suffixes, suffix ∈ slotSuffixes := by
  cases pty <;> simp [PTy.suffixes, slotSuffixes]

/-- The suffixes end in different letters, and none ends in an `e`. -/
theorem slotSuffixes_last :
    (∀ suffix ∈ slotSuffixes, suffix.toList.getLast? ≠ none ∧
      suffix.toList.getLast? ≠ some 'e' ∧ suffix.toList.head? = some '_') ∧
    ∀ suffix ∈ slotSuffixes, ∀ suffix' ∈ slotSuffixes,
      suffix.toList.getLast? = suffix'.toList.getLast? → suffix = suffix' := by
  decide

theorem getLast?_append_suffix (ident : String) {suffix : String}
    (hsuffix : suffix ∈ slotSuffixes) :
    (ident ++ suffix).toList.getLast? = suffix.toList.getLast? := by
  have hlast := (slotSuffixes_last.1 suffix hsuffix).1
  rw [String.toList_append, List.getLast?_append]
  cases hchar : suffix.toList.getLast? with
  | none => exact absurd hchar hlast
  | some _ => rfl

theorem append_suffix_inj {ident ident' suffix suffix' : String}
    (hsuffix : suffix ∈ slotSuffixes) (hsuffix' : suffix' ∈ slotSuffixes)
    (heq : ident ++ suffix = ident' ++ suffix') :
    suffix = suffix' ∧ ident = ident' := by
  have hlast := congrArg (fun s : String => s.toList.getLast?) heq
  simp only [getLast?_append_suffix _ hsuffix,
    getLast?_append_suffix _ hsuffix'] at hlast
  have hsame := slotSuffixes_last.2 suffix hsuffix suffix' hsuffix' hlast
  subst hsame
  refine ⟨rfl, ?_⟩
  have hchars := congrArg String.toList heq
  rw [String.toList_append, String.toList_append] at hchars
  exact String.toList_inj.mp (List.append_cancel_right hchars)

theorem append_suffix_ne_frame (ident : String) {suffix : String}
    (hsuffix : suffix ∈ slotSuffixes) : ident ++ suffix ≠ "__frame" := by
  intro heq
  have hlast := congrArg (fun s : String => s.toList.getLast?) heq
  simp only [getLast?_append_suffix _ hsuffix] at hlast
  exact (slotSuffixes_last.1 suffix hsuffix).2.1 hlast

theorem append_suffix_not_variant (ident : String) {suffix : String}
    (hsuffix : suffix ∈ slotSuffixes) : ident ++ suffix ∉ preludeVariants := by
  have hplain : ∀ name ∈ preludeVariants, '_' ∉ name.toList := by decide
  intro hmem
  apply hplain _ hmem
  rw [String.toList_append]
  apply List.mem_append_right
  exact List.mem_of_head? (slotSuffixes_last.1 suffix hsuffix).2.2

theorem append_suffix_ne (ident : String) {suffix : String}
    (hsuffix : suffix ∈ slotSuffixes) : ident ≠ ident ++ suffix := by
  intro heq
  have hlength := congrArg (fun s : String => s.toList.length) heq
  simp only [String.toList_append, List.length_append] at hlength
  have hnil : suffix.toList = [] := List.length_eq_zero_iff.mp (by omega)
  have hlast := (slotSuffixes_last.1 suffix hsuffix).1
  rw [hnil] at hlast
  exact hlast rfl

theorem unraw_append_suffix (ident : String) {suffix : String}
    (hsuffix : suffix ∈ slotSuffixes) :
    unraw (ident ++ suffix) = unraw ident ++ suffix := by
  have hhead := (slotSuffixes_last.1 suffix hsuffix).2.2
  obtain ⟨tail, htail⟩ : ∃ tail, suffix.toList = '_' :: tail :=
    List.head?_eq_some_iff.mp hhead
  have hchars : (ident ++ suffix).toList = ident.toList ++ '_' :: tail := by
    rw [String.toList_append, htail]
  unfold unraw
  rw [hchars]
  match hident : ident.toList with
  | [] => rfl
  | [c] =>
      simp only [List.cons_append, List.nil_append]
      split
      · rename_i heq
        simp at heq
      · rfl
  | c :: c' :: rest =>
      simp only [List.cons_append]
      by_cases hraw : c = 'r' ∧ c' = '#'
      · obtain ⟨rfl, rfl⟩ := hraw
        simp only
        apply String.toList_inj.mp
        rw [String.toList_append, htail, String.toList_ofList,
          String.toList_ofList]
      · split
        · rename_i heq
          simp only [List.cons.injEq] at heq
          exact absurd ⟨heq.1, heq.2.1⟩ hraw
        · split
          · rename_i heq
            simp only [List.cons.injEq] at heq
            exact absurd ⟨heq.1, heq.2.1⟩ hraw
          · rfl

/-- The names of a parameter's slots. -/
theorem PTy.mem_slotNames {pty : PTy} {ident name : String} :
    name ∈ (pty.slots ident).map (·.1) ↔
      (pty.ownsName = true ∧ name = ident) ∨
        ∃ suffix ∈ pty.suffixes, name = ident ++ suffix := by
  cases pty <;> simp [PTy.slots, PTy.ownsName, PTy.suffixes, or_comm]

theorem PTy.slotNames_unraw (pty : PTy) (ident : String) :
    (pty.slots ident).map (fun slot => unraw slot.1) =
      (pty.slots (unraw ident)).map (·.1) := by
  have hptr := @unraw_append_suffix ident "_ptr" (by decide)
  have hlen := @unraw_append_suffix ident "_len" (by decide)
  have hpresent := @unraw_append_suffix ident "_present" (by decide)
  have huserdata := @unraw_append_suffix ident "_userdata" (by decide)
  cases pty <;> simp [PTy.slots, hptr, hlen, hpresent, huserdata]

theorem PTy.slotNames_nodup (pty : PTy) (ident : String) :
    ((pty.slots ident).map (·.1)).Nodup := by
  have hne : ∀ suffix ∈ slotSuffixes, ∀ suffix' ∈ slotSuffixes,
      suffix ≠ suffix' → ident ++ suffix ≠ ident ++ suffix' := by
    intro suffix hsuffix suffix' hsuffix' hdiffer heq
    exact hdiffer (append_suffix_inj hsuffix hsuffix' heq).1
  have hptrLen := hne "_ptr" (by decide) "_len" (by decide) (by decide)
  have hpresentPtr := hne "_present" (by decide) "_ptr" (by decide) (by decide)
  have hpresentLen := hne "_present" (by decide) "_len" (by decide) (by decide)
  have hpresent := (@append_suffix_ne ident "_present" (by decide)).symm
  have huserdata := @append_suffix_ne ident "_userdata" (by decide)
  cases pty <;>
    simp [PTy.slots, hptrLen, hpresentPtr, hpresentLen, hpresent, huserdata]

/-! ## What names resolve to -/

theorem lookup_of_nodup_keys {α β : Type} [DecidableEq α]
    {entries : List (α × β)} (hnodup : (entries.map (·.1)).Nodup) {key : α}
    {value : β} (hmem : (key, value) ∈ entries) :
    entries.lookup key = some value := by
  obtain ⟨before, after, rfl⟩ := List.append_of_mem hmem
  apply List.lookup_eq_some_iff.mpr
  refine ⟨before, after, rfl, fun entry hentry => ?_⟩
  rw [List.map_append, List.map_cons] at hnodup
  have hdisjoint := (List.nodup_append.mp hnodup).2.2
  have hne : entry.1 ≠ key :=
    hdisjoint entry.1 (List.mem_map_of_mem hentry) key List.mem_cons_self
  simpa using hne.symm

/-- The last parameter whose prelude binds the name. -/
def lastBound : ℕ → List (String × PTy) → String → Option ℕ
  | _, [], _ => none
  | i, p :: rest, name =>
      (lastBound (i + 1) rest name).or
        (if p.2.binds = true ∧ paramIdent p = name then some i else none)

theorem after_preludes (scope : Scope) (i : ℕ) (params : List (String × PTy))
    (name : String) :
    scope.after (preludes i params) name =
      match lastBound i params name with
      | some k => some (.argument k)
      | none => scope name := by
  induction params generalizing scope i with
  | nil => rfl
  | cons p rest ih =>
      have hprelude : scope.after (p.2.prelude i (paramIdent p)) =
          if p.2.binds then scope.bind (paramIdent p) (.argument i)
          else scope := by
        rw [PTy.prelude, after_append, after_variantSteps, after_append,
          after_useSteps]
        split <;> rfl
      rw [preludes, after_append, hprelude, ih, lastBound]
      cases lastBound (i + 1) rest name with
      | some k => rfl
      | none =>
          simp only [Option.none_or]
          cases hbinds : p.2.binds with
          | false => simp
          | true =>
              by_cases hname : paramIdent p = name
              · simp [Scope.bind, hname]
              · simp [Scope.bind, hname, Ne.symm hname]

theorem lastBound_eq_none_iff {i : ℕ} {params : List (String × PTy)}
    {name : String} :
    lastBound i params name = none ↔
      ∀ p ∈ params, p.2.binds = true → paramIdent p ≠ name := by
  induction params generalizing i with
  | nil => simp [lastBound]
  | cons p rest ih =>
      rw [lastBound, Option.or_eq_none_iff, ih, List.forall_mem_cons, and_comm]
      apply and_congr_left'
      by_cases hbound : p.2.binds = true ∧ paramIdent p = name
      · simp [hbound]
      · rw [if_neg hbound]
        exact iff_of_true rfl fun hbinds hname => hbound ⟨hbinds, hname⟩

theorem lastBound_split {i : ℕ} {before after : List (String × PTy)}
    {p : String × PTy} (hbinds : p.2.binds = true)
    (hafter : ∀ q ∈ after, paramIdent q ≠ paramIdent p) :
    lastBound i (before ++ p :: after) (paramIdent p) =
      some (i + before.length) := by
  induction before generalizing i with
  | nil =>
      have hnone : lastBound (i + 1) after (paramIdent p) = none :=
        lastBound_eq_none_iff.mpr fun q hq _ => hafter q hq
      simp [lastBound, hnone, hbinds]
  | cons first rest ih =>
      have hlength : i + 1 + rest.length = i + (first :: rest).length := by
        rw [List.length_cons]
        omega
      rw [List.cons_append, lastBound, ih, Option.some_or, hlength]

/-- What the prelude of a parameter asks of the scope that it stands in. -/
structure PTy.Reads (pty : PTy) (i : ℕ) (ident : String) (scope : Scope) :
    Prop where
  variants : ∀ name ∈ pty.variants, scope name = none
  reads : ∀ read ∈ pty.reads i ident, scope read.1 = some read.2
  bindable : pty.binds = true → ident ∉ preludeVariants

theorem resolves_prelude {scope : Scope} {i : ℕ} {ident : String} {pty : PTy} :
    Resolves scope (pty.prelude i ident) ↔ pty.Reads i ident scope := by
  have hbind : Resolves scope
      (if pty.binds then [BodyStep.bind ident (.argument i)] else []) ↔
        (pty.binds = true → ident ∉ preludeVariants) := by
    cases pty.binds <;> simp [Resolves]
  rw [PTy.prelude, resolves_append, resolves_append, after_variantSteps,
    after_useSteps, resolves_variantSteps, resolves_useSteps, hbind]
  exact ⟨fun ⟨hvariants, hreads, hbindable⟩ => ⟨hvariants, hreads, hbindable⟩,
    fun hall => ⟨hall.variants, hall.reads, hall.bindable⟩⟩

/-- The preludes read what they should when each does in the scope that the
earlier ones leave. -/
theorem resolves_preludes {scope : Scope} {i : ℕ}
    {params : List (String × PTy)} :
    Resolves scope (preludes i params) ↔
      ∀ before p after, params = before ++ p :: after →
        p.2.Reads (i + before.length) (paramIdent p)
          (scope.after (preludes i before)) := by
  induction params generalizing scope i with
  | nil => simp [preludes, Resolves]
  | cons first rest ih =>
      rw [preludes, resolves_append, resolves_prelude, ih]
      constructor
      · rintro ⟨hreads, hrest⟩ before p after hsplit
        cases before with
        | nil =>
            cases hsplit
            exact hreads
        | cons first' before =>
            cases hsplit
            have hlength : i + 1 + before.length =
                i + (first :: before).length := by
              rw [List.length_cons]
              omega
            rw [preludes, after_append, ← hlength]
            exact hrest before p after rfl
      · intro hreads
        refine ⟨hreads [] first rest rfl, ?_⟩
        rintro before p after rfl
        have hlength : i + (first :: before).length =
            i + 1 + before.length := by
          rw [List.length_cons]
          omega
        rw [← after_append, ← hlength]
        exact hreads (first :: before) p after rfl

theorem mem_passedFrom {i : ℕ} {params : List (String × PTy)}
    {read : String × Binding} :
    read ∈ passedFrom i params ↔
      ∃ before p after, params = before ++ p :: after ∧
        read = (paramIdent p, p.2.passed (i + before.length)) := by
  induction params generalizing i with
  | nil => simp [passedFrom]
  | cons first rest ih =>
      rw [passedFrom, List.mem_cons, ih]
      constructor
      · rintro (rfl | ⟨before, p, after, rfl, rfl⟩)
        · exact ⟨[], first, rest, rfl, rfl⟩
        · refine ⟨first :: before, p, after, rfl, ?_⟩
          rw [List.length_cons, Nat.add_right_comm, Nat.add_assoc]
      · rintro ⟨before, p, after, hsplit, rfl⟩
        cases before with
        | nil =>
            cases hsplit
            exact .inl rfl
        | cons first' before =>
            cases hsplit
            refine .inr ⟨before, p, after, rfl, ?_⟩
            rw [List.length_cons, Nat.add_right_comm, Nat.add_assoc]

theorem slotsFrom_keys (i : ℕ) (params : List (String × PTy)) :
    (slotsFrom i params).map (·.1) =
      params.flatMap fun p => (p.2.slots (paramIdent p)).map (·.1) := by
  induction params generalizing i with
  | nil => rfl
  | cons p rest ih =>
      have hzip : ∀ (slots : Slots) (k : ℕ),
          ((slots.zipIdx k).map fun (slot, k) =>
            (slot.1, Binding.slot i k)).map (·.1) = slots.map (·.1) := by
        intro slots
        induction slots with
        | nil => simp
        | cons slot slots ih =>
            intro k
            simpa [List.zipIdx_cons] using ih (k + 1)
      rw [slotsFrom, List.map_append, ih, List.flatMap_cons, hzip]

theorem mem_slotsFrom {i : ℕ} {before after : List (String × PTy)}
    {p : String × PTy} {name : String} {k : ℕ}
    (hslot : (name, k) ∈ (p.2.slots (paramIdent p)).zipIdx.map
      fun (slot, k) => (slot.1, k)) :
    (name, .slot (i + before.length) k) ∈ slotsFrom i (before ++ p :: after) := by
  induction before generalizing i with
  | nil =>
      obtain ⟨entry, hmem, heq⟩ := List.mem_map.mp hslot
      apply List.mem_append_left
      refine List.mem_map.mpr ⟨entry, hmem, ?_⟩
      cases heq
      rfl
  | cons first rest ih =>
      have hlength : i + (first :: rest).length = i + 1 + rest.length := by
        rw [List.length_cons]
        omega
      rw [hlength]
      exact List.mem_append_right _ ih

/-- A prelude reads the frame and its own slots. -/
theorem PTy.mem_reads {pty : PTy} {i : ℕ} {ident : String}
    {read : String × Binding} (hread : read ∈ pty.reads i ident) :
    pty.binds = true ∧
      ((read = ("__frame", .frame) ∧ pty.usesFrame = true) ∨
        ∃ k, read.2 = .slot i k ∧
          (read.1, k) ∈ (pty.slots ident).zipIdx.map
            fun (slot, k) => (slot.1, k)) := by
  cases pty <;>
    simp only [PTy.reads, List.mem_cons, List.not_mem_nil, or_false] at hread
  all_goals
    refine ⟨rfl, ?_⟩
    rcases hread with rfl | rfl | rfl | rfl
  all_goals
    first
      | exact .inl ⟨rfl, rfl⟩
      | exact .inr ⟨_, rfl, by simp [PTy.slots]⟩

/-- Every slot of a bound parameter is read. -/
theorem PTy.exists_read {pty : PTy} (i : ℕ) {ident name : String}
    (hbinds : pty.binds = true)
    (hname : name ∈ (pty.slots ident).map (·.1)) :
    ∃ k, (name, .slot i k) ∈ pty.reads i ident := by
  cases pty with
  | scalar _ => cases hbinds
  | bool => cases hbinds
  | handleRef _ =>
      rw [List.mem_singleton.mp hname]
      exact ⟨0, by simp [PTy.reads]⟩
  | optionStr | optionBytes =>
      simp only [PTy.slots, List.map_cons, List.map_nil, List.mem_cons,
        List.not_mem_nil, or_false] at hname
      rcases hname with rfl | rfl | rfl
      · exact ⟨0, by simp [PTy.reads]⟩
      · exact ⟨1, by simp [PTy.reads]⟩
      · exact ⟨2, by simp [PTy.reads]⟩
  | _ =>
      simp only [PTy.slots, List.map_cons, List.map_nil, List.mem_cons,
        List.not_mem_nil, or_false] at hname
      rcases hname with rfl | rfl
      · exact ⟨0, by simp [PTy.reads]⟩
      · exact ⟨1, by simp [PTy.reads]⟩

/-- The slots of two parameters have different names. -/
theorem ParamsApart.slots_ne {p q : String × PTy} (hapart : ParamsApart p q)
    {name : String} (hp : name ∈ (p.2.slots (paramIdent p)).map (·.1)) :
    name ∉ (q.2.slots (paramIdent q)).map (·.1) := by
  intro hq
  rcases PTy.mem_slotNames.mp hp with ⟨-, rfl⟩ | ⟨suffix, hsuffix, rfl⟩ <;>
    rcases PTy.mem_slotNames.mp hq with ⟨howns, heq⟩ | ⟨suffix', hsuffix', heq⟩
  · exact hapart.idents heq
  · exact hapart.before suffix' hsuffix' heq
  · exact hapart.after howns suffix hsuffix heq.symm
  · exact hapart.idents (append_suffix_inj (p.2.suffixes_subset _ hsuffix)
      (q.2.suffixes_subset _ hsuffix') heq).2

/-- What is not rebound is its own first slot. -/
theorem PTy.own_slot_of_not_binds {pty : PTy} (ident : String)
    (hbinds : pty.binds = false) :
    (ident, 0) ∈ (pty.slots ident).zipIdx.map fun (slot, k) => (slot.1, k) := by
  revert hbinds
  cases pty <;> simp [PTy.binds, PTy.slots]

theorem PTy.ownsName_of_not_binds {pty : PTy} (hbinds : pty.binds = false) :
    pty.ownsName = true := by
  cases pty <;> first | rfl | cases hbinds

theorem PTy.binds_of_not_ownsName {pty : PTy} (howns : pty.ownsName = false) :
    pty.binds = true := by
  cases pty <;> first | rfl | cases howns

theorem PTy.binds_of_suffix {pty : PTy} {suffix : String}
    (hsuffix : suffix ∈ pty.suffixes) : pty.binds = true := by
  cases pty <;> first | rfl | cases hsuffix

theorem PTy.variants_subset (pty : PTy) :
    ∀ name ∈ pty.variants, name ∈ preludeVariants := by
  cases pty <;> simp [PTy.variants, preludeVariants]

/-! ## The parts of hygiene -/

theorem RTy.writes_ne_nil (result : RTy) : result.writes ≠ [] := by
  cases result <;> simp [RTy.writes]

namespace Shim

variable {shim : Shim}

/-- The extern parameters, with what they are. -/
def entries (shim : Shim) : List (String × Binding) :=
  slotsFrom 0 shim.params ++ outEntries shim.result

/-- The scope after the preludes of some parameters. -/
def scopeAfter (shim : Shim) (before : List (String × PTy)) : Scope :=
  (shim.scope.bind "__frame" .frame).after (preludes 0 before)

theorem scopeAfter_eq (before : List (String × PTy)) (name : String) :
    shim.scopeAfter before name =
      match lastBound 0 before name with
      | some k => some (.argument k)
      | none =>
          if name = "__frame" then some .frame
          else (shim.entries.lookup name).or (shim.call.items.lookup name) :=
  after_preludes _ 0 before name

theorem resolves_tails (scope : Scope) :
    (∀ tail ∈ shim.tails, Resolves scope tail) ↔
      (∀ name ∈ shim.tailVariants, scope name = none) ∧
      ∀ entry ∈ outEntries shim.result, scope entry.1 = some entry.2 := by
  have hwrites : (∀ write ∈ shim.result.writes,
      Resolves scope (.bind "__v" .value :: write)) ↔
        (∀ name ∈ (match shim.result with
          | .optionScalar _ | .optionStr | .optionBytes => ["Some"]
          | _ => []), scope name = none) ∧
        ∀ entry ∈ outEntries shim.result, scope entry.1 = some entry.2 := by
    cases shim.result <;>
      simp [RTy.writes, Resolves, Scope.bind, outEntries, RTy.outSlots,
        preludeVariants]
    all_goals tauto
  cases herror : shim.error with
  | none =>
      rw [tails, tailVariants, herror]
      simpa using hwrites
  | some _ =>
      have herr : Resolves scope
          [.variant "Err", .bind "__e" .error, .use "__e" .error] ↔
            scope "Err" = none := by
        simp [Resolves, Scope.bind, preludeVariants]
      have hok : (∀ write ∈ shim.result.writes,
          Resolves scope (.variant "Ok" :: .bind "__v" .value :: write)) ↔
            scope "Ok" = none ∧ ∀ write ∈ shim.result.writes,
              Resolves scope (.bind "__v" .value :: write) := by
        obtain ⟨first, hfirst⟩ := List.exists_mem_of_ne_nil _
          shim.result.writes_ne_nil
        exact ⟨fun hall => ⟨(hall first hfirst).1,
          fun write hwrite => (hall write hwrite).2⟩,
          fun ⟨hnone, hall⟩ write hwrite => ⟨hnone, hall write hwrite⟩⟩
      rw [tails, tailVariants, herror, List.forall_mem_cons,
        List.forall_mem_map, herr, hok, hwrites, List.forall_mem_append]
      simp only [List.forall_mem_cons]
      tauto

/-- What hygiene asks for in the scopes that the preludes leave. -/
structure Parts (shim : Shim) : Prop where
  distinct : (shim.entries.map (·.1)).Nodup
  bindable : ∀ p ∈ shim.params, paramIdent p ∉ preludeVariants
  reads : ∀ before p after, shim.params = before ++ p :: after →
    p.2.Reads before.length (paramIdent p) (shim.scopeAfter before)
  passed : ∀ before p after, shim.params = before ++ p :: after →
    shim.scopeAfter shim.params (paramIdent p) =
      some (p.2.passed before.length)
  target : ∀ ident, shim.call = .free ident →
    shim.scopeAfter shim.params (unraw ident) = some .function
  tails : ∀ name ∈ shim.tailVariants,
    shim.scopeAfter shim.params name = none
  outs : ∀ entry ∈ outEntries shim.result,
    shim.scopeAfter shim.params entry.1 = some entry.2
  constant : shim.call.items.lookup shim.metaVariant = none

theorem resolves_upToCall :
    Resolves shim.scope shim.upToCall ↔
      Resolves (shim.scope.bind "__frame" .frame) (preludes 0 shim.params) ∧
      (∀ ident, shim.call = .free ident →
        shim.scopeAfter shim.params (unraw ident) = some .function) ∧
      ∀ read ∈ passedFrom 0 shim.params,
        shim.scopeAfter shim.params read.1 = some read.2 := by
  have htarget : ∀ scope : Scope, Resolves scope shim.call.target ↔
      ∀ ident, shim.call = .free ident →
        scope (unraw ident) = some .function := by
    intro scope
    cases shim.call <;> simp [CallKind.target, Resolves]
  have hafter : ∀ scope : Scope, scope.after shim.call.target = scope := by
    intro scope
    cases shim.call <;> rfl
  have hframe : "__frame" ∉ preludeVariants := by decide
  have hbody : Resolves shim.scope shim.upToCall ↔
      Resolves (shim.scope.bind "__frame" .frame)
        (preludes 0 shim.params ++
          (shim.call.target ++ useSteps (passedFrom 0 shim.params))) :=
    and_iff_right hframe
  rw [hbody, resolves_append, resolves_append, resolves_useSteps, hafter,
    htarget]
  exact Iff.rfl

theorem after_upToCall :
    shim.scope.after shim.upToCall = shim.scopeAfter shim.params := by
  have hbody : shim.scope.after shim.upToCall =
      (shim.scope.bind "__frame" .frame).after
        (preludes 0 shim.params ++
          (shim.call.target ++ useSteps (passedFrom 0 shim.params))) :=
    rfl
  rw [hbody, after_append, after_append, after_useSteps]
  cases shim.call <;> rfl

theorem mem_outEntries {name : String} :
    name ∈ (outEntries shim.result).map (·.1) ↔
      ∃ slot ∈ shim.result.outSlots, slot.1 = name := by
  cases shim.result <;> simp [outEntries, RTy.outSlots, eq_comm]

/-- The names of the extern parameters and of the preludes' locals. -/
theorem bindable_iff :
    ((∀ name ∈ shim.entries.map (·.1), name ∉ preludeVariants) ∧
      ∀ p ∈ shim.params, p.2.binds = true →
        paramIdent p ∉ preludeVariants) ↔
      ∀ p ∈ shim.params, paramIdent p ∉ preludeVariants := by
  have hkeys : ∀ name, name ∈ shim.entries.map (·.1) ↔
      (∃ p ∈ shim.params, name ∈ (p.2.slots (paramIdent p)).map (·.1)) ∨
        name ∈ (outEntries shim.result).map (·.1) := by
    intro name
    rw [entries, List.map_append, slotsFrom_keys, List.mem_append,
      List.mem_flatMap]
  constructor
  · rintro ⟨hentries, hlocals⟩ p hp
    cases hbinds : p.2.binds with
    | true => exact hlocals p hp hbinds
    | false =>
        have howns := PTy.ownsName_of_not_binds hbinds
        apply hentries
        exact (hkeys _).mpr
          (.inl ⟨p, hp, PTy.mem_slotNames.mpr (.inl ⟨howns, rfl⟩)⟩)
  · intro hparams
    refine ⟨fun name hname => ?_, fun p hp _ => hparams p hp⟩
    rcases (hkeys name).mp hname with ⟨p, hp, hslot⟩ | hout
    · rcases PTy.mem_slotNames.mp hslot with ⟨-, rfl⟩ | ⟨suffix, hsuffix, rfl⟩
      · exact hparams p hp
      · exact append_suffix_not_variant _ (p.2.suffixes_subset _ hsuffix)
    · have houts : ∀ slot ∈ shim.result.outSlots,
          slot.1 ∉ preludeVariants := by
        cases shim.result <;> simp [RTy.outSlots, preludeVariants]
      obtain ⟨slot, hslot, rfl⟩ := mem_outEntries.mp hout
      exact houts slot hslot

theorem hygienic_iff_parts
    (hnames : shim.externNames = shim.entries.map (·.1)) :
    shim.Hygienic ↔ shim.Parts := by
  have htails : shim.tails ≠ [] := by
    unfold tails
    split <;> simp [shim.result.writes_ne_nil]
  have hpaths : (∀ path ∈ shim.paths, Resolves shim.scope path) ↔
      Resolves shim.scope shim.upToCall ∧
        ∀ tail ∈ shim.tails, Resolves (shim.scopeAfter shim.params) tail := by
    obtain ⟨first, hfirst⟩ := List.exists_mem_of_ne_nil _ htails
    rw [paths, List.forall_mem_map]
    simp only [resolves_append, after_upToCall]
    constructor
    · intro hall
      exact ⟨(hall first hfirst).1, fun tail htail => (hall tail htail).2⟩
    · rintro ⟨hbody, hall⟩ tail htail
      exact ⟨hbody, hall tail htail⟩
  rw [hygienic_iff, hpaths, resolves_upToCall, resolves_preludes,
    resolves_tails, hnames]
  simp only [Nat.zero_add]
  constructor
  · rintro ⟨hdistinct, hbindable, ⟨⟨hreads, htarget, hpassed⟩, htailed,
      houts⟩, hconstant⟩
    refine ⟨hdistinct, bindable_iff.mp ⟨hbindable, ?_⟩, hreads, ?_, htarget,
      htailed, houts, hconstant⟩
    · intro p hp
      obtain ⟨before, after, hsplit⟩ := List.append_of_mem hp
      exact (hreads before p after hsplit).bindable
    · intro before p after hsplit
      have hmem := mem_passedFrom (i := 0).mpr ⟨before, p, after, hsplit, rfl⟩
      simpa using hpassed _ hmem
  · intro hparts
    refine ⟨hparts.distinct, (bindable_iff.mpr hparts.bindable).1,
      ⟨⟨hparts.reads, hparts.target, ?_⟩, hparts.tails, hparts.outs⟩,
      hparts.constant⟩
    intro read hread
    obtain ⟨before, p, after, hsplit, rfl⟩ := mem_passedFrom.mp hread
    simpa using hparts.passed before p after hsplit

end Shim

theorem genFn_externNames {pfx : String} {f : ExportedFn} {shim : Shim}
    (hgen : genFn pfx f = .ok shim) :
    shim.externNames = shim.entries.map (·.1) := by
  obtain ⟨hparams, hresult, houts, hexterns⟩ := genFn_eq_ok hgen
  have hfixed : unraw "out" = "out" ∧ unraw "out_ptr" = "out_ptr" ∧
      unraw "out_len" = "out_len" ∧ unraw "some_out" = "some_out" := by
    decide
  have hout : (outEntries f.result).map (·.1) =
      f.result.outSlots.map fun slot => unraw slot.1 := by
    cases f.result <;> simp [outEntries, RTy.outSlots, hfixed]
  rw [Shim.entries, List.map_append, slotsFrom_keys, hparams, hresult, hout,
    Shim.externNames, hexterns, houts, List.map_append, List.map_flatMap]
  simp only [PTy.slotNames_unraw]
  rfl

/-! ## Names that are apart -/

theorem PTy.passed_inj {pty pty' : PTy} {i j : ℕ}
    (hpassed : pty.passed i = pty'.passed j) : i = j := by
  unfold PTy.passed at hpassed
  split at hpassed <;> split at hpassed <;> cases hpassed <;> rfl

theorem PTy.frame_mem_reads {pty : PTy} {ident : String} (i : ℕ)
    (huses : pty.usesFrame = true) : ("__frame", .frame) ∈ pty.reads i ident := by
  revert huses
  cases pty <;> simp [PTy.reads, PTy.usesFrame]

/-- A relation between entries of which one stands before the other. -/
theorem pairwise_of_splits {α : Type} {R : α → α → Prop} {xs : List α}
    (hsplits : ∀ before x between y after,
      xs = before ++ x :: (between ++ y :: after) → R x y) : xs.Pairwise R := by
  induction xs with
  | nil => exact .nil
  | cons x rest ih =>
      refine .cons (fun y hy => ?_) (ih fun before x' between y after heq => ?_)
      · obtain ⟨between, after, rfl⟩ := List.append_of_mem hy
        exact hsplits [] x between y after rfl
      · exact hsplits (x :: before) x' between y after (by rw [heq]; rfl)

namespace Shim

variable {shim : Shim}

/-- The slots' names of a parameter among those of the extern function. -/
theorem mem_keys {before after : List (String × PTy)} {p : String × PTy}
    (hsplit : shim.params = before ++ p :: after) {name : String}
    (hname : name ∈ (p.2.slots (paramIdent p)).map (·.1)) :
    name ∈ shim.entries.map (·.1) := by
  rw [entries, List.map_append, slotsFrom_keys]
  apply List.mem_append_left
  exact List.mem_flatMap.mpr ⟨p, by simp [hsplit], hname⟩

/-- A name that no local has. -/
structure Unbound (shim : Shim) (before : List (String × PTy)) (name : String) :
    Prop where
  argument : ∀ p ∈ before, p.2.binds = true → paramIdent p ≠ name
  frame : name ≠ "__frame"
  slot : name ∉ shim.entries.map (·.1)

theorem lookup_entries_eq_none {name : String} :
    shim.entries.lookup name = none ↔ name ∉ shim.entries.map (·.1) := by
  simp only [List.lookup_eq_none_iff, List.mem_map, not_exists, not_and]
  constructor
  · rintro hnone entry hentry rfl
    simpa using hnone entry hentry
  · intro hnone entry hentry
    have hne : name ≠ entry.1 := Ne.symm (hnone entry hentry)
    simpa using hne

theorem lookup_entries_ne_function (name : String) :
    shim.entries.lookup name ≠ some .function := by
  have hslots : ∀ (i : ℕ) (params : List (String × PTy)),
      ∀ entry ∈ slotsFrom i params, entry.2 ≠ .function := by
    intro i params
    induction params generalizing i with
    | nil => exact nofun
    | cons p rest ih =>
        intro entry hentry
        rcases List.mem_append.mp hentry with hmem | hmem
        · obtain ⟨_, -, rfl⟩ := List.mem_map.mp hmem
          exact nofun
        · exact ih (i + 1) entry hmem
  intro hlookup
  obtain ⟨before, after, hsplit, -⟩ := List.lookup_eq_some_iff.mp hlookup
  have hmem : (name, Binding.function) ∈ shim.entries := by
    rw [hsplit]
    exact List.mem_append_right _ List.mem_cons_self
  rcases List.mem_append.mp hmem with hslot | hout
  · exact hslots 0 shim.params _ hslot rfl
  · obtain ⟨_, -, heq⟩ := List.mem_map.mp hout
    cases heq

/-- Such a name is left to the module and the prelude. -/
theorem Unbound.scopeAfter_eq {before : List (String × PTy)} {name : String}
    (hunbound : shim.Unbound before name) :
    shim.scopeAfter before name = shim.call.items.lookup name := by
  rw [Shim.scopeAfter_eq, lastBound_eq_none_iff.mpr hunbound.argument]
  simp only [hunbound.frame, if_false,
    lookup_entries_eq_none.mpr hunbound.slot, Option.none_or]

theorem unbound_of_scopeAfter {before : List (String × PTy)} {name : String}
    (hscope : shim.scopeAfter before name = none ∨
      shim.scopeAfter before name = some .function) :
    shim.Unbound before name := by
  rw [scopeAfter_eq] at hscope
  cases hlast : lastBound 0 before name with
  | some k =>
      rw [hlast] at hscope
      rcases hscope with hscope | hscope <;> cases hscope
  | none =>
      simp only [hlast] at hscope
      have hframe : name ≠ "__frame" := by
        intro heq
        rw [if_pos heq] at hscope
        rcases hscope with hscope | hscope <;> cases hscope
      refine ⟨lastBound_eq_none_iff.mp hlast, hframe,
        lookup_entries_eq_none.mp ?_⟩
      rw [if_neg hframe] at hscope
      cases hlookup : shim.entries.lookup name with
      | none => rfl
      | some binding =>
          rw [hlookup, Option.some_or] at hscope
          rcases hscope with hscope | hscope
          · cases hscope
          · exact absurd (hlookup.trans hscope)
              (lookup_entries_ne_function name)

theorem lookup_items_eq_none {name : String} :
    shim.call.items.lookup name = none ↔
      ∀ ident, shim.call = .free ident → unraw ident ≠ name := by
  cases shim.call with
  | free ident =>
      by_cases hname : name = unraw ident
      · simp [CallKind.items, hname]
      · have hbeq : (name == unraw ident) = false := by simpa using hname
        simp [CallKind.items, List.lookup_cons, hbeq, Ne.symm hname]
  | method _ => simp [CallKind.items]
  | ctor _ _ => simp [CallKind.items]

/-- No local hides a variant of the prelude. -/
theorem unbound_variant
    (hbindable : ∀ p ∈ shim.params, paramIdent p ∉ preludeVariants)
    {before : List (String × PTy)} (hbefore : ∀ p ∈ before, p ∈ shim.params)
    {name : String} (hname : name ∈ preludeVariants) :
    shim.Unbound before name := by
  refine ⟨?_, ?_, ?_⟩
  · rintro p hp - rfl
    exact hbindable p (hbefore p hp) hname
  · rintro rfl
    exact absurd hname (by decide)
  · intro hkey
    exact (bindable_iff.mpr hbindable).1 name hkey hname

theorem tailVariants_subset :
    ∀ name ∈ shim.tailVariants, name ∈ preludeVariants := by
  unfold tailVariants
  cases shim.result <;> cases shim.error <;> simp [preludeVariants]

/-- A name that a prelude has bound is no slot, no frame. -/
theorem scopeAfter_bound {before : List (String × PTy)} {p : String × PTy}
    (hp : p ∈ before) (hbinds : p.2.binds = true) :
    ∃ k, shim.scopeAfter before (paramIdent p) = some (.argument k) := by
  rw [scopeAfter_eq]
  cases hbound : lastBound 0 before (paramIdent p) with
  | some k => exact ⟨k, rfl⟩
  | none => exact absurd rfl (lastBound_eq_none_iff.mp hbound p hp hbinds)

theorem scopeAfter_frame {before : List (String × PTy)} {binding : Binding}
    (hscope : shim.scopeAfter before "__frame" = some binding) :
    binding = .frame ∨ ∃ k, binding = .argument k := by
  rw [scopeAfter_eq] at hscope
  cases hbound : lastBound 0 before "__frame" with
  | some k =>
      rw [hbound] at hscope
      cases hscope
      exact .inr ⟨k, rfl⟩
  | none =>
      rw [hbound] at hscope
      cases hscope
      exact .inl rfl

/-- A function has not the name of what resolves to nothing. -/
theorem function_ne {ident : String} (hcall : shim.call = .free ident)
    {before : List (String × PTy)} {name : String}
    (hnone : shim.scopeAfter before name = none) : unraw ident ≠ name := by
  have hunbound := unbound_of_scopeAfter (.inl hnone)
  rw [hunbound.scopeAfter_eq] at hnone
  exact lookup_items_eq_none.mp hnone ident hcall

/-! ### Hygiene needs it -/

namespace Parts

variable (hparts : shim.Parts)
include hparts

/-- Two parameters of one identifier are not both passed. -/
theorem idents_ne {before between after : List (String × PTy)}
    {p q : String × PTy}
    (hsplit : shim.params = before ++ p :: (between ++ q :: after)) :
    paramIdent p ≠ paramIdent q := by
  intro heq
  have hp := hparts.passed before p _ hsplit
  have hq := hparts.passed (before ++ p :: between) q after
    (by simp [hsplit])
  rw [heq, hq, Option.some_inj] at hp
  have hsame := PTy.passed_inj hp
  rw [List.length_append, List.length_cons] at hsame
  omega

/-- No slot of a parameter has the name of another entry. -/
theorem keys_ne {before between after : List (String × PTy)}
    {p q : String × PTy}
    (hsplit : shim.params = before ++ p :: (between ++ q :: after))
    {name name' : String}
    (hname : name ∈ (p.2.slots (paramIdent p)).map (·.1))
    (hname' : name' ∈ (q.2.slots (paramIdent q)).map (·.1)) :
    name ≠ name' := by
  have hnodup := hparts.distinct
  rw [entries, List.map_append, slotsFrom_keys, hsplit, List.flatMap_append,
    List.flatMap_cons, List.flatMap_append, List.flatMap_cons] at hnodup
  have hkeys := (List.nodup_append.mp (List.nodup_append.mp hnodup).1).2.1
  apply (List.nodup_append.mp hkeys).2.2 name hname name'
  exact List.mem_append_right _ (List.mem_append_left _ hname')

theorem out_ne {p : String × PTy} (hp : p ∈ shim.params) {name : String}
    (hname : name ∈ (p.2.slots (paramIdent p)).map (·.1)) :
    ∀ slot ∈ shim.result.outSlots, slot.1 ≠ name := by
  intro slot hslot
  have hnodup := hparts.distinct
  rw [entries, List.map_append, slotsFrom_keys] at hnodup
  have hkeys := (List.nodup_append.mp hnodup).2.2 name
    (List.mem_flatMap.mpr ⟨p, hp, hname⟩) slot.1
    (mem_outEntries.mpr ⟨slot, hslot, rfl⟩)
  exact hkeys.symm

theorem frame_ne {p : String × PTy} (hp : p ∈ shim.params)
    (howns : p.2.ownsName = true) : paramIdent p ≠ "__frame" := by
  intro hframe
  obtain ⟨before, after, hsplit⟩ := List.append_of_mem hp
  have hpassed := hparts.passed before p after hsplit
  rw [hframe] at hpassed
  cases hbinds : p.2.binds with
  | true =>
      have hslot : "__frame" ∈ (p.2.slots (paramIdent p)).map (·.1) :=
        PTy.mem_slotNames.mpr (.inl ⟨howns, hframe.symm⟩)
      obtain ⟨k, hread⟩ := PTy.exists_read before.length hbinds hslot
      have hscope := (hparts.reads before p after hsplit).reads _ hread
      rcases scopeAfter_frame hscope with heq | ⟨k', heq⟩ <;> cases heq
  | false =>
      rcases scopeAfter_frame hpassed with heq | ⟨k', heq⟩ <;>
        simp [PTy.passed, hbinds] at heq

theorem paramsApart {before between after : List (String × PTy)}
    {p q : String × PTy}
    (hsplit : shim.params = before ++ p :: (between ++ q :: after)) :
    ParamsApart p q := by
  have hq : shim.params = (before ++ p :: between) ++ q :: after := by
    simp [hsplit]
  refine ⟨hparts.idents_ne hsplit, ?_, ?_, ?_⟩
  · intro suffix hsuffix heq
    have hname : paramIdent p ∈ (q.2.slots (paramIdent q)).map (·.1) :=
      PTy.mem_slotNames.mpr (.inr ⟨suffix, hsuffix, heq⟩)
    cases howns : p.2.ownsName with
    | true =>
        exact hparts.keys_ne hsplit
          (PTy.mem_slotNames.mpr (.inl ⟨howns, rfl⟩)) hname rfl
    | false =>
        obtain ⟨k, hread⟩ := PTy.exists_read (before ++ p :: between).length
          (PTy.binds_of_suffix hsuffix) hname
        have hscope := (hparts.reads _ q after hq).reads _ hread
        obtain ⟨k', hbound⟩ := @scopeAfter_bound shim (before ++ p :: between)
          p (by simp) (PTy.binds_of_not_ownsName howns)
        rw [hbound] at hscope
        cases hscope
  · intro howns suffix hsuffix heq
    exact hparts.keys_ne hsplit
      (PTy.mem_slotNames.mpr (.inr ⟨suffix, hsuffix, rfl⟩))
      (PTy.mem_slotNames.mpr (.inl ⟨howns, rfl⟩)) heq.symm
  · intro hframe
    by_contra huses
    have huses : q.2.usesFrame = true := by simpa using huses
    have hbinds : p.2.binds = true := by
      by_contra hnot
      have howns := PTy.ownsName_of_not_binds (eq_false_of_ne_true hnot)
      exact hparts.frame_ne (by simp [hsplit]) howns hframe
    have hscope := (hparts.reads _ q after hq).reads _
      (PTy.frame_mem_reads _ huses)
    obtain ⟨k, hbound⟩ := @scopeAfter_bound shim (before ++ p :: between)
      p (by simp) hbinds
    rw [hframe] at hbound
    rw [hbound] at hscope
    cases hscope

/-- A parameter that owns no slot is rebound, and would hide the result's. -/
theorem ident_ne_out {p : String × PTy} (hp : p ∈ shim.params) :
    ∀ slot ∈ shim.result.outSlots, slot.1 ≠ paramIdent p := by
  intro slot hslot hident
  cases howns : p.2.ownsName with
  | true =>
      exact hparts.out_ne hp
        (PTy.mem_slotNames.mpr (.inl ⟨howns, rfl⟩)) slot hslot hident
  | false =>
      obtain ⟨k, hbound⟩ := @scopeAfter_bound shim _ p hp
        (PTy.binds_of_not_ownsName howns)
      obtain ⟨entry, hentry, hname⟩ :=
        List.mem_map.mp (mem_outEntries.mpr ⟨slot, hslot, rfl⟩)
      have hscope := hparts.outs entry hentry
      rw [hname, hident, hbound] at hscope
      obtain ⟨_, _, rfl⟩ := List.mem_map.mp hentry
      cases hscope

theorem function_ne_param {ident : String} (hcall : shim.call = .free ident)
    {p : String × PTy} (hp : p ∈ shim.params) :
    unraw ident ≠ paramIdent p ∧
      (∀ suffix ∈ p.2.suffixes, unraw ident ≠ paramIdent p ++ suffix) ∧
      unraw ident ∉ p.2.variants := by
  obtain ⟨hunbound, -, hkeys⟩ :=
    unbound_of_scopeAfter (.inr (hparts.target ident hcall))
  obtain ⟨before, after, hsplit⟩ := List.append_of_mem hp
  refine ⟨?_, ?_, ?_⟩
  · intro hsame
    cases hbinds : p.2.binds with
    | true => exact hunbound p hp hbinds hsame.symm
    | false =>
        have howns := PTy.ownsName_of_not_binds hbinds
        exact hkeys (mem_keys hsplit
          (PTy.mem_slotNames.mpr (.inl ⟨howns, hsame⟩)))
  · intro suffix hsuffix hsame
    exact hkeys (mem_keys hsplit
      (PTy.mem_slotNames.mpr (.inr ⟨suffix, hsuffix, hsame⟩)))
  · intro hvariant
    have hnone := (hparts.reads before p after hsplit).variants _ hvariant
    exact function_ne hcall hnone rfl

theorem namesApart : shim.NamesApart := by
  refine ⟨hparts.bindable, ?_, fun p hp => hparts.frame_ne hp, ?_, ?_⟩
  · apply pairwise_of_splits
    intro before p between q after hsplit
    exact hparts.paramsApart hsplit
  · intro p hp slot hslot
    refine ⟨hparts.ident_ne_out hp slot hslot, fun suffix hsuffix => ?_⟩
    exact hparts.out_ne hp
      (PTy.mem_slotNames.mpr (.inr ⟨suffix, hsuffix, rfl⟩)) slot hslot
  · intro ident hcall
    obtain ⟨-, hframe, hkeys⟩ :=
      unbound_of_scopeAfter (.inr (hparts.target ident hcall))
    refine ⟨hframe, ?_, fun p hp => hparts.function_ne_param hcall hp, ?_, ?_⟩
    · rintro slot hslot hsame
      apply hkeys
      rw [entries, List.map_append]
      exact List.mem_append_right _
        (mem_outEntries.mpr ⟨slot, hslot, hsame.symm⟩)
    · intro hvariant
      exact function_ne hcall (hparts.tails _ hvariant) rfl
    · exact lookup_items_eq_none.mp hparts.constant ident hcall

end Parts

/-! ### It is enough -/

namespace NamesApart

variable (hapart : shim.NamesApart)
include hapart

theorem split {before between after : List (String × PTy)}
    {p q : String × PTy}
    (hsplit : shim.params = before ++ p :: (between ++ q :: after)) :
    ParamsApart p q := by
  have hpairs := hapart.params
  rw [hsplit] at hpairs
  have hp := (List.pairwise_append.mp hpairs).2.1
  exact (List.pairwise_cons.mp hp).1 q (by simp)

theorem of_mem_before {before after : List (String × PTy)}
    {p q : String × PTy} (hsplit : shim.params = before ++ q :: after)
    (hp : p ∈ before) : ParamsApart p q := by
  obtain ⟨first, between, rfl⟩ := List.append_of_mem hp
  exact @split _ hapart first _ _ _ _ (by simpa using hsplit)

theorem of_mem_after {before after : List (String × PTy)}
    {p q : String × PTy} (hsplit : shim.params = before ++ p :: after)
    (hq : q ∈ after) : ParamsApart p q := by
  obtain ⟨between, last, rfl⟩ := List.append_of_mem hq
  exact hapart.split hsplit

theorem distinct : (shim.entries.map (·.1)).Nodup := by
  have houts : ((outEntries shim.result).map (·.1)).Nodup := by
    cases shim.result <;> simp [outEntries, RTy.outSlots]
  rw [entries, List.map_append, slotsFrom_keys]
  refine List.nodup_append.mpr ⟨?_, houts, ?_⟩
  · refine List.nodup_flatMap.mpr ⟨fun p _ => p.2.slotNames_nodup _, ?_⟩
    refine hapart.params.imp fun hpair => ?_
    exact fun name hp hq => hpair.slots_ne hp hq
  · intro name hname name' hname' heq
    subst heq
    obtain ⟨p, hp, hname⟩ := List.mem_flatMap.mp hname
    obtain ⟨slot, hslot, rfl⟩ := mem_outEntries.mp hname'
    obtain ⟨hident, hsuffixes⟩ := hapart.out p hp slot hslot
    rcases PTy.mem_slotNames.mp hname with ⟨-, heq⟩ | ⟨suffix, hsuffix, heq⟩
    · exact hident heq
    · exact hsuffixes suffix hsuffix heq

/-- A slot's name that no earlier prelude has bound resolves to the slot. -/
theorem scopeAfter_slot {before before' after : List (String × PTy)}
    {p : String × PTy} (hsplit : shim.params = before' ++ p :: after)
    {name : String} {k : ℕ}
    (hslot : (name, k) ∈ (p.2.slots (paramIdent p)).zipIdx.map
      fun (slot, k) => (slot.1, k))
    (hunbound : ∀ q ∈ before, q.2.binds = true → paramIdent q ≠ name) :
    shim.scopeAfter before name = some (.slot before'.length k) := by
  have hname : name ∈ (p.2.slots (paramIdent p)).map (·.1) := by
    obtain ⟨⟨slot, k'⟩, hmem, heq⟩ := List.mem_map.mp hslot
    cases heq
    exact List.mem_map_of_mem (List.fst_mem_of_mem_zipIdx hmem)
  have hframe : name ≠ "__frame" := by
    rcases PTy.mem_slotNames.mp hname with ⟨howns, rfl⟩ | ⟨suffix, hsuffix, rfl⟩
    · exact hapart.frame p (by simp [hsplit]) howns
    · exact append_suffix_ne_frame _ (p.2.suffixes_subset _ hsuffix)
  have hmem : (name, .slot before'.length k) ∈ shim.entries := by
    have hslots := @mem_slotsFrom 0 before' after _ _ _ hslot
    rw [Nat.zero_add, ← hsplit] at hslots
    exact List.mem_append_left _ hslots
  rw [scopeAfter_eq, lastBound_eq_none_iff.mpr hunbound]
  simp only [hframe, if_false, lookup_of_nodup_keys hapart.distinct hmem,
    Option.some_or]

/-- A variant that the function's name is not is left to the prelude. -/
theorem scopeAfter_variant {before : List (String × PTy)}
    (hbefore : ∀ p ∈ before, p ∈ shim.params) {name : String}
    (hname : name ∈ preludeVariants)
    (hfunction : ∀ ident, shim.call = .free ident → unraw ident ≠ name) :
    shim.scopeAfter before name = none := by
  rw [(unbound_variant hapart.variants hbefore hname).scopeAfter_eq]
  exact lookup_items_eq_none.mpr hfunction

theorem reads {before after : List (String × PTy)} {p : String × PTy}
    (hsplit : shim.params = before ++ p :: after) :
    p.2.Reads before.length (paramIdent p) (shim.scopeAfter before) := by
  have hp : p ∈ shim.params := by simp [hsplit]
  refine ⟨?_, ?_, fun _ => hapart.variants p hp⟩
  · intro name hname
    apply hapart.scopeAfter_variant _ (p.2.variants_subset name hname)
    · rintro ident hcall rfl
      exact ((hapart.target ident hcall).2.2.1 p hp).2.2 hname
    · intro q hq
      rw [hsplit]
      exact List.mem_append_left _ hq
  intro read hread
  obtain ⟨-, ⟨rfl, huses⟩ | ⟨k, hslot, hmem⟩⟩ := PTy.mem_reads hread
  · have hunbound : ∀ q ∈ before, q.2.binds = true →
        paramIdent q ≠ "__frame" := by
      intro q hq _ hframe
      have hnone := (hapart.of_mem_before hsplit hq).frame hframe
      rw [huses] at hnone
      cases hnone
    rw [scopeAfter_eq, lastBound_eq_none_iff.mpr hunbound]
    rfl
  · rw [hslot]
    apply hapart.scopeAfter_slot hsplit hmem
    intro q hq _ hsame
    have hpair := hapart.of_mem_before hsplit hq
    have hname : read.1 ∈ (p.2.slots (paramIdent p)).map (·.1) := by
      obtain ⟨⟨slot, k'⟩, hzip, heq⟩ := List.mem_map.mp hmem
      have hfst := congrArg Prod.fst heq
      exact hfst ▸ List.mem_map_of_mem (List.fst_mem_of_mem_zipIdx hzip)
    rcases PTy.mem_slotNames.mp hname with ⟨-, heq⟩ | ⟨suffix, hsuffix, heq⟩
    · exact hpair.idents (hsame.trans heq)
    · exact hpair.before suffix hsuffix (hsame.trans heq)

/-- An identifier resolves to what its own prelude has bound, or to its
slot. -/
theorem passed {before after : List (String × PTy)} {p : String × PTy}
    (hsplit : shim.params = before ++ p :: after) :
    shim.scopeAfter shim.params (paramIdent p) =
      some (p.2.passed before.length) := by
  cases hbinds : p.2.binds with
  | true =>
      have hlast : lastBound 0 shim.params (paramIdent p) =
          some (0 + before.length) := by
        rw [hsplit]
        exact lastBound_split hbinds fun q hq heq =>
          (hapart.of_mem_after hsplit hq).idents heq.symm
      rw [scopeAfter_eq, hlast, Nat.zero_add]
      simp [PTy.passed, hbinds]
  | false =>
      have hslot := PTy.own_slot_of_not_binds (paramIdent p) hbinds
      have hscope := @scopeAfter_slot _ hapart shim.params _ _ _ hsplit _ _
        hslot (fun q hq hqbinds hsame => by
          rw [hsplit, List.mem_append, List.mem_cons] at hq
          rcases hq with hmem | rfl | hmem
          · exact (hapart.of_mem_before hsplit hmem).idents hsame
          · rw [hqbinds] at hbinds
            cases hbinds
          · exact (hapart.of_mem_after hsplit hmem).idents hsame.symm)
      rw [hscope]
      simp [PTy.passed, hbinds]

theorem function_unbound {ident : String} (hcall : shim.call = .free ident) :
    shim.Unbound shim.params (unraw ident) := by
  obtain ⟨hframe, houts, hparams, -⟩ := hapart.target ident hcall
  refine ⟨fun p hp _ heq => (hparams p hp).1 heq.symm, hframe, ?_⟩
  intro hmem
  rw [entries, List.map_append, slotsFrom_keys] at hmem
  rcases List.mem_append.mp hmem with hslots | hmem
  · obtain ⟨p, hp, hname⟩ := List.mem_flatMap.mp hslots
    rcases PTy.mem_slotNames.mp hname with ⟨-, heq⟩ | ⟨suffix, hsuffix, heq⟩
    · exact (hparams p hp).1 heq
    · exact (hparams p hp).2.1 suffix hsuffix heq
  · obtain ⟨slot, hslot, heq⟩ := mem_outEntries.mp hmem
    exact houts slot hslot heq.symm

theorem outs : ∀ entry ∈ outEntries shim.result,
    shim.scopeAfter shim.params entry.1 = some entry.2 := by
  intro entry hentry
  obtain ⟨slot, hslot, hname⟩ :=
    mem_outEntries.mp (List.mem_map_of_mem hentry)
  have hframe : entry.1 ≠ "__frame" := by
    have hnames : ∀ slot ∈ shim.result.outSlots, slot.1 ≠ "__frame" := by
      cases shim.result <;> simp [RTy.outSlots]
    exact hname ▸ hnames slot hslot
  have hunbound : ∀ p ∈ shim.params, p.2.binds = true →
      paramIdent p ≠ entry.1 := by
    intro p hp _ heq
    exact (hapart.out p hp slot hslot).1 (hname.trans heq.symm)
  have hlookup := lookup_of_nodup_keys hapart.distinct
    (List.mem_append_right _ hentry)
  rw [scopeAfter_eq, lastBound_eq_none_iff.mpr hunbound]
  simp only [hframe, if_false, hlookup, Option.some_or]

theorem parts : shim.Parts where
  distinct := hapart.distinct
  bindable := hapart.variants
  reads _ _ _ hsplit := hapart.reads hsplit
  passed _ _ _ hsplit := hapart.passed hsplit
  target := by
    intro ident hcall
    rw [(hapart.function_unbound hcall).scopeAfter_eq, hcall]
    simp [CallKind.items]
  tails := by
    intro name hname
    apply hapart.scopeAfter_variant (fun _ hp => hp)
      (tailVariants_subset name hname)
    rintro ident hcall rfl
    exact (hapart.target ident hcall).2.2.2.1 hname
  outs := hapart.outs
  constant := lookup_items_eq_none.mpr fun ident hcall =>
    (hapart.target ident hcall).2.2.2.2

end NamesApart

end Shim

/-- The shim of an accepted export is hygienic. -/
def itemHygienic (item : ExportItem) : Option Bool :=
  (exportItem (fun p => p.last.ident) asciiCase "demo_rulisp_" item).toOption.map
    fun (_, shim) => decide shim.Hygienic

theorem itemHygienic_eq_some {item : ExportItem} {hygienic : Bool}
    (hitem : itemHygienic item = some hygienic) :
    ∃ f shim, exportItem (fun p => p.last.ident) asciiCase "demo_rulisp_" item =
        .ok (f, shim) ∧ (shim.Hygienic ↔ hygienic = true) := by
  obtain ⟨⟨f, shim⟩, hsome, rfl⟩ := Option.map_eq_some_iff.mp hitem
  refine ⟨f, shim, ?_, decide_eq_true_iff.symm⟩
  cases hexport : exportItem (fun p => p.last.ident) asciiCase "demo_rulisp_"
      item with
  | ok result =>
      rw [hexport] at hsome
      exact congrArg Except.ok (Option.some.inj hsome)
  | error e =>
      rw [hexport] at hsome
      cases hsome

/-- `&str`. -/
def strRefType : Ty := .reference none false (.ofName ⟨"str", isName_str⟩)

/-- `pub fn contains(&self, this: &str) -> bool` on `Bag`: the call becomes
`this.contains(this)` on the string. -/
def containsItem : ExportItem :=
  .method (.ofName ⟨"Bag", isName_bag⟩)
    { docs := []
      attrs := []
      sig :=
        { ident := ⟨"contains", by decide⟩
          receiver := some
            { reference := some none, isMut := false, colonToken := false }
          inputs := [(some ⟨"this", by decide⟩, strRefType)]
          output := some (.ofName ⟨"bool", by decide⟩) } }

/-- `pub fn cut(text: &str, text_len: i32)`: two parameters of one name. -/
def cutItem : ExportItem :=
  .free []
    { ident := ⟨"cut", by decide⟩
      receiver := none
      inputs := [(some ⟨"text", isName_text⟩, strRefType),
        (some ⟨"text_len", by decide⟩, .ofName ⟨"i32", isName_i32⟩)]
      output := none }

/-- `pub fn out() -> i32`: the result slot hides the function. -/
def outItem : ExportItem :=
  .free []
    { ident := ⟨"out", by decide⟩
      receiver := none
      inputs := []
      output := some (.ofName ⟨"i32", isName_i32⟩) }

/-- `pub fn put(out: &str) -> i32`: the prelude hides the result slot. -/
def putItem : ExportItem :=
  .free []
    { ident := ⟨"put", by decide⟩
      receiver := none
      inputs := [(some ⟨"out", by decide⟩, strRefType)]
      output := some (.ofName ⟨"i32", isName_i32⟩) }

/-- `pub fn Ok(text: &str)`: the `Ok` of the prelude is the function. -/
def okItem : ExportItem :=
  .free []
    { ident := ⟨"Ok", by decide⟩
      receiver := none
      inputs := [(some ⟨"text", isName_text⟩, strRefType)]
      output := none }

end Rulisp
