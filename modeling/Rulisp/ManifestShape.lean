import Rulisp.ManifestGrammar

/-!
# Manifests of any shape

Which data `parse-manifest` comes through without a condition of the host's
own.  A check that refuses the manifest ends the load there, so a shape is
harmful only where no earlier check has refused it.
-/

namespace Rulisp

/-! ## No condition of the host -/

/-- The result is a value or one of rulisp's own conditions. -/
def Tame {α : Type} (result : LispResult α) : Prop :=
  ∀ kind, result ≠ .error (.hostError kind)

section Tame

variable {α β : Type}

@[simp] theorem tame_ok (a : α) : Tame (.ok a : LispResult α) :=
  fun _ hsame => nomatch hsame

@[simp] theorem tame_pure (a : α) : Tame (pure a : LispResult α) := tame_ok a

@[simp] theorem tame_manifestError (message : Message) :
    Tame (manifestError message : LispResult α) :=
  fun _ hsame => nomatch hsame

@[simp] theorem not_tame_hostError (kind : HostError) :
    ¬Tame (hostError kind : LispResult α) :=
  fun htame => htame kind rfl

theorem tame_bind {x : LispResult α} {f : α → LispResult β} :
    Tame (x >>= f) ↔ Tame x ∧ ∀ a, x = .ok a → Tame (f a) := by
  cases x with
  | error e =>
      constructor
      · intro htame
        exact ⟨fun kind hsame => htame kind (by cases hsame; rfl),
          fun a hok => nomatch hok⟩
      · rintro ⟨htame, -⟩ kind hsame
        cases hsame
        exact htame kind rfl
  | ok a =>
      constructor
      · intro htame
        refine ⟨tame_ok a, fun b hok => ?_⟩
        cases hok
        exact htame
      · rintro ⟨-, hrest⟩
        exact hrest a rfl

theorem tame_bind_pure {x : LispResult α} {g : α → β} :
    Tame (x >>= fun a => pure (g a)) ↔ Tame x := by
  rw [tame_bind]
  exact and_iff_left fun _ _ => tame_pure _

@[simp] theorem tame_errorUnless (test : Prop) [Decidable test]
    (message : Message) : Tame (errorUnless test (.manifestError message)) := by
  unfold errorUnless
  split
  · exact tame_ok ()
  · exact tame_manifestError message

end Tame

/-! ## Lists that are walked -/

/-- The list is walked to its end, or to an element that is refused, and every
element met is sound. -/
def Datum.Walks (accepted sound : Datum → Prop) : Datum → Prop
  | .nil => True
  | .cons first rest =>
      sound first ∧ (accepted first → rest.Walks accepted sound)
  | _ => False

/-- Every element up to the first that is refused is sound. -/
def Reached {α : Type} (accepted sound : α → Prop) (xs : List α) : Prop :=
  ∀ before x after, xs = before ++ x :: after →
    (∀ y ∈ before, accepted y) → sound x

section Walks

theorem tame_mapcar {α : Type} {f : Datum → LispResult α}
    {accepted sound : Datum → Prop}
    (haccepted : ∀ x, (∃ a, f x = .ok a) ↔ accepted x)
    (hsound : ∀ x, Tame (f x) ↔ sound x) (datum : Datum) :
    Tame (datum.mapcar f) ↔ datum.Walks accepted sound := by
  induction datum with
  | nil => exact iff_of_true (tame_ok []) trivial
  | cons first rest _ ih =>
      rw [Datum.mapcar, tame_bind, Datum.Walks, hsound, ← haccepted]
      refine and_congr_right fun _ => ?_
      constructor
      · rintro htame ⟨a, hok⟩
        exact ih.mp (tame_bind.mp (htame a hok)).1
      · intro hwalks a hok
        exact tame_bind.mpr ⟨ih.mpr (hwalks ⟨a, hok⟩), fun _ _ => tame_ok _⟩
  | keyword name => exact iff_of_false (not_tame_hostError _) id
  | string value => exact iff_of_false (not_tame_hostError _) id
  | integer value => exact iff_of_false (not_tame_hostError _) id

variable {α β : Type} {f : α → LispResult β} {accepted sound : α → Prop}

theorem reached_cons {x : α} {xs : List α} :
    Reached accepted sound (x :: xs) ↔
      sound x ∧ (accepted x → Reached accepted sound xs) := by
  constructor
  · intro hreached
    refine ⟨hreached [] x xs rfl fun _ hmem => absurd hmem List.not_mem_nil, ?_⟩
    rintro hok before y after rfl hbefore
    exact hreached (x :: before) y after rfl
      (List.forall_mem_cons.mpr ⟨hok, hbefore⟩)
  · rintro ⟨hfirst, hrest⟩ before y after hsplit hbefore
    cases before with
    | nil =>
        cases hsplit
        exact hfirst
    | cons z before =>
        cases hsplit
        obtain ⟨hok, hbefore⟩ := List.forall_mem_cons.mp hbefore
        exact hrest hok before y after rfl hbefore

theorem tame_collect {xs : List α}
    (haccepted : ∀ x ∈ xs, ((∃ b, f x = .ok b) ↔ accepted x))
    (hsound : ∀ x ∈ xs, (Tame (f x) ↔ sound x)) :
    Tame (collect f xs) ↔ Reached accepted sound xs := by
  induction xs with
  | nil =>
      refine iff_of_true (tame_ok []) fun before x after hsplit => ?_
      cases before <;> cases hsplit
  | cons x xs ih =>
      obtain ⟨hfirst, hrest⟩ := List.forall_mem_cons.mp hsound
      obtain ⟨hok, haccepted⟩ := List.forall_mem_cons.mp haccepted
      rw [collect, tame_bind, reached_cons, hfirst, ← hok]
      refine and_congr_right fun _ => ?_
      constructor
      · rintro htame ⟨a, hok⟩
        exact (ih haccepted hrest).mp (tame_bind.mp (htame a hok)).1
      · intro hreached a hok
        exact tame_bind.mpr ⟨(ih haccepted hrest).mpr (hreached ⟨a, hok⟩),
          fun _ _ => tame_ok _⟩

end Walks

theorem tame_getf {plist : Datum} {key : String} :
    Tame (plist.getf key) ↔ plist.properPlist = true := by
  unfold Datum.getf
  by_cases hproper : plist.properPlist = true
  · rw [if_pos hproper]
    exact iff_of_true (tame_ok _) hproper
  · rw [if_neg hproper]
    exact iff_of_false (not_tame_hostError _) hproper

/-! ## The manifest's own shape -/

/-- A plist with a string under each key. -/
def Datum.HasStrings (plist : Datum) (keys : List String) : Prop :=
  ∀ key ∈ keys, ∃ value, plist.lookup key = .string value

/-- A string, or nothing but strings up to the end or to something else. -/
def Datum.StringsRead : Datum → Prop
  | .nil => True
  | .cons (.string _) rest => rest.StringsRead
  | .cons _ _ => True
  | _ => False

def ErrorsSound (errors : Datum) : Prop :=
  (∃ value, errors = .string value) ∨ errors.StringsRead

def ParamSound (form : Datum) : Prop :=
  form.isCons = true → form.properPlist = true

def HandleSound (form : Datum) : Prop :=
  ∀ plist, form = .cons (.keyword "HANDLE") plist → plist.properPlist = true

def FnSound (form : Datum) : Prop :=
  ∀ plist, form = .cons (.keyword "FN") plist →
    plist.properPlist = true ∧
      (plist.HasStrings ["RUST-NAME", "LISP-NAME", "SYMBOL"] →
        (plist.lookup "PARAMS").Walks (∃ p, ParamRead · p) ParamSound)

/-- The entries before `:errors` are as they should be. -/
structure HeaderRead (plist : Datum) : Prop where
  schema : ∃ n, plist.lookup "SCHEMA" = .integer n ∧ n ≤ 1
  abi : ∃ n, plist.lookup "ABI" = .integer n
  strings : plist.HasStrings ["CRATE", "PREFIX"]
  optional : ∀ key ∈ ["CRATE-VERSION", "TARGET"],
    ∃ value, plist.lookup key = optionalString value

/-- Wherever `parse-manifest` comes to, the list is what its operator needs. -/
def ManifestSound (form : Datum) : Prop :=
  ∀ plist, form = .cons (.keyword "RULISP-MANIFEST") plist →
    plist.properPlist = true ∧ (HeaderRead plist →
      ErrorsSound (plist.lookup "ERRORS") ∧
      (ErrorsRead (plist.lookup "ERRORS") →
        (plist.lookup "HANDLES").Walks (∃ h, HandleRead · h) HandleSound ∧
        ((∃ specs, HandlesRead (plist.lookup "HANDLES") specs) →
          (plist.lookup "FUNCTIONS").Walks (∃ f, FnRead · f) FnSound)))

/-! ## Parsing -/

section Parsing

theorem tame_stringOr (value : Datum) (message : Message) :
    Tame (value.stringOr (.manifestError message)) := by
  cases value <;> first | exact tame_ok _ | exact tame_manifestError message

theorem tame_optionalStringOr (value : Datum) (message : Message) :
    Tame (value.optionalStringOr (.manifestError message)) := by
  cases value <;> first | exact tame_ok _ | exact tame_manifestError message

theorem tame_integerOr (value : Datum) (message : Message) :
    Tame (value.integerOr (.manifestError message)) := by
  cases value <;> first | exact tame_ok _ | exact tame_manifestError message

variable {plist : Datum} {key : String}

theorem tame_getfString : Tame (getfString plist key) ↔
    plist.properPlist = true := by
  rw [getfString, tame_bind, tame_getf]
  exact and_iff_left fun value _ => tame_stringOr value _

theorem tame_getfOptionalString : Tame (getfOptionalString plist key) ↔
    plist.properPlist = true := by
  rw [getfOptionalString, tame_bind, tame_getf]
  exact and_iff_left fun value _ => tame_optionalStringOr value _

theorem tame_getfInt : Tame (getfInt plist key) ↔
    plist.properPlist = true := by
  rw [getfInt, tame_bind, tame_getf]
  exact and_iff_left fun value _ => tame_integerOr value _

theorem tame_parseParam (form : Datum) :
    Tame (parseParam form) ↔ ParamSound form := by
  unfold parseParam ParamSound
  simp only [tame_bind, tame_errorUnless, errorUnless_eq_ok, true_and,
    forall_const, tame_getf, tame_pure, implies_true, and_true]
  refine imp_congr_right fun _ => and_iff_left_of_imp fun hproper value _ => ?_
  exact ⟨tame_stringOr value _, fun _ _ => hproper⟩

theorem tame_parseHandle (form : Datum) :
    Tame (parseHandle form) ↔ HandleSound form := by
  unfold HandleSound parseHandle
  split
  · rename_i plist
    simp only [tame_bind, tame_getfString, tame_getfOptionalString,
      Datum.cons.injEq, true_and, forall_eq', tame_pure, implies_true, and_true]
    refine and_iff_left_of_imp fun hproper _ _ => ⟨hproper, fun _ _ => ?_⟩
    exact ⟨hproper, fun _ _ => hproper⟩
  · rename_i hother
    exact iff_of_true (tame_manifestError _)
      fun plist hform => absurd hform (hother plist)

theorem tame_parseFn (form : Datum) :
    Tame (parseFn form) ↔ FnSound form := by
  unfold FnSound parseFn
  split
  · rename_i plist
    simp only [Datum.cons.injEq, true_and, forall_eq']
    rw [tame_bind, tame_getfString]
    refine and_congr_right fun hproper => ?_
    simp only [tame_bind, tame_getfString, getfString_eq_ok, getf_eq_ok,
      tame_getf, hproper, true_and, forall_eq', tame_errorUnless,
      tame_getfOptionalString, tame_pure, implies_true, and_true,
      tame_mapcar (fun x => exists_congr (parseParam_eq_ok x)) tame_parseParam]
    constructor
    · intro hwalks hstrings
      obtain ⟨rustName, hrust⟩ := hstrings "RUST-NAME" (by simp)
      obtain ⟨lispName, hlisp⟩ := hstrings "LISP-NAME" (by simp)
      obtain ⟨symbol, hsymbol⟩ := hstrings "SYMBOL" (by simp)
      exact hwalks rustName hrust lispName hlisp symbol hsymbol
    · intro hwalks rustName hrust lispName hlisp symbol hsymbol
      apply hwalks
      simp only [Datum.HasStrings, List.forall_mem_cons, List.not_mem_nil,
        false_implies, implies_true, and_true]
      exact ⟨⟨rustName, hrust⟩, ⟨lispName, hlisp⟩, ⟨symbol, hsymbol⟩⟩
  · rename_i hother
    exact iff_of_true (tame_manifestError _)
      fun plist hform => absurd hform (hother plist)

theorem tame_everyStringpList (errors : Datum) :
    Tame (everyStringpList errors) ↔ errors.StringsRead := by
  fun_induction everyStringpList errors with
  | case1 => exact iff_of_true (tame_ok _) trivial
  | case2 value rest ih => exact ih
  | case3 first rest hfirst =>
      refine iff_of_true (tame_ok _) ?_
      cases first <;> first | trivial | exact absurd rfl (hfirst _)
  | case4 other hnil hstring hcons =>
      refine iff_of_false (not_tame_hostError _) fun hread => ?_
      cases other with
      | nil => exact hnil rfl
      | cons car cdr => exact hcons car cdr rfl
      | keyword name => exact hread
      | string value => exact hread
      | integer value => exact hread

theorem tame_everyStringp (errors : Datum) :
    Tame (everyStringp errors) ↔ ErrorsSound errors := by
  unfold everyStringp
  split
  · rename_i value
    exact iff_of_true (tame_ok _) (.inl ⟨value, rfl⟩)
  · rename_i hother
    rw [tame_everyStringpList, ErrorsSound]
    refine ⟨.inr, fun hsound => ?_⟩
    rcases hsound with ⟨value, hvalue⟩ | hread
    · exact absurd hvalue (hother value)
    · exact hread

theorem tame_checkUniqueFrom {α : Type} (lispNameOf rustNameOf : α → String)
    (what : String) (seen : List (String × String)) (specs : List α) :
    Tame (checkUniqueFrom lispNameOf rustNameOf what seen specs) := by
  induction specs generalizing seen with
  | nil => exact tame_ok ()
  | cons spec rest ih =>
      unfold checkUniqueFrom
      split
      · exact tame_manifestError _
      · exact ih _

theorem tame_checkUniqueLispNames {α : Type} (specs : List α)
    (lispNameOf rustNameOf : α → String) (what : String) :
    Tame (checkUniqueLispNames specs lispNameOf rustNameOf what) :=
  tame_bind.mpr ⟨tame_checkUniqueFrom _ _ _ _ _, fun _ _ => tame_ok _⟩

theorem tame_validateOnDump (manifest : Manifest) :
    Tame (validateOnDump manifest) := by
  unfold validateOnDump
  split
  · exact tame_ok _
  split
  · exact tame_manifestError _
  split
  · exact tame_ok _
  · exact tame_manifestError _

/-- The entries before `:errors`, in their order. -/
theorem headerRead_iff : HeaderRead plist ↔
    ∃ schema, plist.lookup "SCHEMA" = .integer schema ∧ schema ≤ 1 ∧
    ∃ abi, plist.lookup "ABI" = .integer abi ∧
    ∃ crate, plist.lookup "CRATE" = .string crate ∧
    ∃ crateVersion, plist.lookup "CRATE-VERSION" = optionalString crateVersion ∧
    ∃ target, plist.lookup "TARGET" = optionalString target ∧
    ∃ pfx, plist.lookup "PREFIX" = .string pfx := by
  constructor
  · rintro ⟨⟨schema, hschema, hle⟩, ⟨abi, habi⟩, hstrings, hoptional⟩
    obtain ⟨crate, hcrate⟩ := hstrings "CRATE" (by simp)
    obtain ⟨pfx, hpfx⟩ := hstrings "PREFIX" (by simp)
    obtain ⟨version, hversion⟩ := hoptional "CRATE-VERSION" (by simp)
    obtain ⟨target, htarget⟩ := hoptional "TARGET" (by simp)
    exact ⟨schema, hschema, hle, abi, habi, crate, hcrate, version, hversion,
      target, htarget, pfx, hpfx⟩
  · rintro ⟨schema, hschema, hle, abi, habi, crate, hcrate, version, hversion,
      target, htarget, pfx, hpfx⟩
    refine ⟨⟨schema, hschema, hle⟩, ⟨abi, habi⟩, ?_, ?_⟩
    · simp only [Datum.HasStrings, List.forall_mem_cons, List.not_mem_nil,
        false_implies, implies_true, and_true]
      exact ⟨⟨crate, hcrate⟩, ⟨pfx, hpfx⟩⟩
    · simp only [List.forall_mem_cons, List.not_mem_nil, false_implies,
        implies_true, and_true]
      exact ⟨⟨version, hversion⟩, ⟨target, htarget⟩⟩

/-- `parse-manifest` signals no condition of the host on the sound forms, and
only there. -/
theorem tame_parseManifest (form : Datum) :
    Tame (parseManifest form) ↔ ManifestSound form := by
  unfold ManifestSound parseManifest
  split
  · rename_i plist
    simp only [Datum.cons.injEq, true_and, forall_eq']
    rw [tame_bind, tame_getfInt]
    refine and_congr_right fun hproper => ?_
    simp only [tame_bind, tame_getfInt, tame_getfString, tame_getf,
      tame_getfOptionalString, getfString_eq_ok, getfInt_eq_ok, getf_eq_ok,
      getfOptionalString_eq_ok, hproper, true_and, forall_eq',
      tame_errorUnless, errorUnless_eq_ok, implies_true, and_true,
      tame_mapcar (fun x => exists_congr (parseHandle_eq_ok x))
        tame_parseHandle,
      tame_mapcar (fun x => exists_congr (parseFn_eq_ok x)) tame_parseFn,
      mapcar_eq_ok parseHandle_eq_ok, uniqueLispNames_eq_ok,
      tame_checkUniqueLispNames, tame_validateOnDump, tame_everyStringp]
    rw [headerRead_iff]
    constructor
    · rintro htail ⟨schema, hschema, hle, abi, habi, crate, hcrate, version,
        hversion, target, htarget, pfx, hpfx⟩
      obtain ⟨herrors, hrest⟩ := htail schema hschema () hle abi habi crate
        hcrate version hversion target htarget pfx hpfx
      refine ⟨herrors, fun hstrings => ?_⟩
      obtain ⟨hhandles, hrest⟩ :=
        hrest true (everyStringp_eq_true.mpr hstrings) () rfl
      refine ⟨hhandles, ?_⟩
      rintro ⟨specs, hspecs, hnames⟩
      exact hrest specs hspecs specs ⟨rfl, hnames⟩
    · intro htail schema hschema _ hle abi habi crate hcrate version hversion
        target htarget pfx hpfx
      obtain ⟨herrors, hrest⟩ := htail ⟨schema, hschema, hle, abi, habi, crate,
        hcrate, version, hversion, target, htarget, pfx, hpfx⟩
      refine ⟨herrors, ?_⟩
      rintro strings hstrings _ rfl
      obtain ⟨hhandles, hrest⟩ := hrest (everyStringp_eq_true.mp hstrings)
      refine ⟨hhandles, ?_⟩
      rintro specs hspecs _ ⟨rfl, hnames⟩
      exact hrest ⟨_, hspecs, hnames⟩
  · rename_i hother
    exact iff_of_true (tame_manifestError _)
      fun plist hform => absurd hform (hother plist)

end Parsing

end Rulisp
