import Mathlib.Data.Int.Notation
import Mathlib.Logic.Function.Basic
import Mathlib.Data.List.Basic

/-!
# Manifest data and the conditions of a load

The data a manifest consists of once `%sanitize` has accepted it, with the
list operators of the host that the loader applies to it, and the conditions
that a load can signal.  An operator that the host refuses on the shape of
its argument signals a `hostError`, which is none of rulisp's own conditions.
-/

namespace Rulisp

/-- The manifest grammar: keywords, strings, integers, lists and NIL. -/
inductive Datum
  | nil
  | keyword (name : String)
  | string (value : String)
  | integer (value : ℤ)
  | cons (car cdr : Datum)
  deriving DecidableEq, Repr

/-- A formatted text whose data arguments stay unprinted: `~S`, `~(~S~)`
and `~(~A~)`. -/
inductive MessagePart
  | text (value : String)
  | printed (datum : Datum)
  | printedDown (datum : Datum)
  | namedDown (datum : Datum)
  deriving DecidableEq, Repr

abbrev Message := List MessagePart

inductive HostError
  | malformedPlist
  | typeError
  | programError
  | fileError
  | packageError
  | other
  deriving DecidableEq, Repr

inductive LoadCondition
  | manifestError (message : Message)
  | crateNotLoaded (name : String) (message : Message)
  | abiMismatch (expected actual : Datum) (message : Option Message)
  | hostError (kind : HostError)
  deriving DecidableEq, Repr

abbrev LispResult (α : Type) := Except LoadCondition α

def manifestError {α : Type} (message : Message) : LispResult α :=
  .error (.manifestError message)

def hostError {α : Type} (kind : HostError) : LispResult α :=
  .error (.hostError kind)

/-- `(unless test (error e))`. -/
def errorUnless (test : Prop) [Decidable test] (e : LoadCondition) :
    LispResult Unit :=
  if test then .ok () else .error e

/-- A step that the host does or refuses. -/
def hostStep (refusal : Option HostError) : LispResult Unit :=
  match refusal with
  | none => .ok ()
  | some kind => hostError kind

/-- `(loop for x in list collect (f x))`. -/
def collect {α β : Type} (f : α → LispResult β) : List α → LispResult (List β)
  | [] => .ok []
  | first :: rest => do
      let value ← f first
      let values ← collect f rest
      return value :: values

namespace Datum

def isCons : Datum → Bool
  | .cons _ _ => true
  | _ => false

/-- An alternating list of indicators and values that ends in NIL. -/
def properPlist : Datum → Bool
  | .nil => true
  | .cons _ (.cons _ rest) => rest.properPlist
  | _ => false

def lookup (key : String) : Datum → Datum
  | .cons indicator (.cons value rest) =>
      if indicator = .keyword key then value else lookup key rest
  | _ => .nil

/-- `(getf plist key)`. -/
def getf (plist : Datum) (key : String) : LispResult Datum :=
  if plist.properPlist then .ok (plist.lookup key)
  else hostError .malformedPlist

def car : Datum → LispResult Datum
  | .nil => .ok .nil
  | .cons first _ => .ok first
  | _ => hostError .typeError

def cdr : Datum → LispResult Datum
  | .nil => .ok .nil
  | .cons _ rest => .ok rest
  | _ => hostError .typeError

def second (datum : Datum) : LispResult Datum := do
  let rest ← datum.cdr
  rest.car

/-- `(mapcar f datum)`, in order, with `endp` at each tail. -/
def mapcar {α : Type} (f : Datum → LispResult α) : Datum → LispResult (List α)
  | .nil => .ok []
  | .cons first rest => do
      let value ← f first
      let values ← mapcar f rest
      return value :: values
  | _ => hostError .typeError

/-- `(dolist (x datum) (f x))`. -/
def dolist (f : Datum → LispResult Unit) : Datum → LispResult Unit
  | .nil => .ok ()
  | .cons first rest => do
      f first
      dolist f rest
  | _ => hostError .typeError

def ofList : List Datum → Datum
  | [] => .nil
  | first :: rest => .cons first (ofList rest)

def ofPlist : List (String × Datum) → Datum
  | [] => .nil
  | (key, value) :: rest => .cons (.keyword key) (.cons value (ofPlist rest))

end Datum

/-! ## Inversion -/

theorem LispResult.bind_eq_ok {α β : Type} {x : LispResult α}
    {f : α → LispResult β} {b : β} :
    (x >>= f) = .ok b ↔ ∃ a, x = .ok a ∧ f a = .ok b := by
  cases x with
  | error e =>
      constructor
      · intro h
        cases h
      · rintro ⟨a, h, -⟩
        cases h
  | ok a =>
      constructor
      · exact fun h => ⟨a, rfl, h⟩
      · rintro ⟨a', ha, h⟩
        cases ha
        exact h

/-- What is only wrapped up in the end returns when it does. -/
theorem LispResult.bind_pure_ok_iff {α β : Type} {x : LispResult α}
    {g : α → β} :
    (∃ b, (x >>= fun a => pure (g a)) = .ok b) ↔ ∃ a, x = .ok a := by
  simp only [LispResult.bind_eq_ok]
  constructor
  · rintro ⟨_, a, ha, -⟩
    exact ⟨a, ha⟩
  · rintro ⟨a, ha⟩
    exact ⟨g a, a, ha, rfl⟩

@[simp] theorem errorUnless_eq_ok {test : Prop} [Decidable test]
    {e : LoadCondition} {u : Unit} :
    errorUnless test e = .ok u ↔ test := by
  unfold errorUnless
  split <;> simp [*]

@[simp] theorem hostStep_eq_ok {refusal : Option HostError} {u : Unit} :
    hostStep refusal = .ok u ↔ refusal = none := by
  cases refusal <;> simp [hostStep, hostError]

theorem collect_eq_ok {α β : Type} {f : α → LispResult β} {xs : List α}
    {ys : List β} (hcollect : collect f xs = .ok ys) :
    List.Forall₂ (fun x y => f x = .ok y) xs ys := by
  induction xs generalizing ys with
  | nil =>
      cases hcollect
      exact .nil
  | cons first rest ih =>
      obtain ⟨value, hvalue, hrest⟩ := LispResult.bind_eq_ok.mp hcollect
      obtain ⟨values, hvalues, hys⟩ := LispResult.bind_eq_ok.mp hrest
      cases hys
      exact .cons hvalue (ih hvalues)

theorem mem_of_lookup_eq_some {α β : Type} [BEq α] [LawfulBEq α]
    {entries : List (α × β)} {key : α} {value : β}
    (hlookup : entries.lookup key = some value) : (key, value) ∈ entries := by
  obtain ⟨before, after, hsplit, -⟩ := List.lookup_eq_some_iff.mp hlookup
  simp [hsplit]

/-- Every collected value comes from one of the elements. -/
theorem collect_mem {α β : Type} {f : α → LispResult β} {xs : List α}
    {ys : List β} (hcollect : collect f xs = .ok ys) {y : β} (hy : y ∈ ys) :
    ∃ x ∈ xs, f x = .ok y := by
  have hpairs := collect_eq_ok hcollect
  clear hcollect
  induction hpairs with
  | nil => cases hy
  | cons hfirst _ ih =>
      rcases List.mem_cons.mp hy with rfl | hrest
      · exact ⟨_, List.mem_cons_self, hfirst⟩
      · obtain ⟨x, hx, hfx⟩ := ih hrest
        exact ⟨x, List.mem_cons_of_mem _ hx, hfx⟩

/-- Every element has its value among those collected. -/
theorem collect_mem_of_mem {α β : Type} {f : α → LispResult β} {xs : List α}
    {ys : List β} (hcollect : collect f xs = .ok ys) {x : α} (hx : x ∈ xs) :
    ∃ y ∈ ys, f x = .ok y := by
  have hpairs := collect_eq_ok hcollect
  clear hcollect
  induction hpairs with
  | nil => cases hx
  | cons hfirst _ ih =>
      rcases List.mem_cons.mp hx with rfl | hrest
      · exact ⟨_, List.mem_cons_self, hfirst⟩
      · obtain ⟨y, hy, hfy⟩ := ih hrest
        exact ⟨y, List.mem_cons_of_mem _ hy, hfy⟩

/-- All elements are gone through when each is accepted. -/
theorem collect_ok_iff {α β : Type} {f : α → LispResult β}
    {accepted : α → Prop} {xs : List α}
    (haccepted : ∀ x ∈ xs, ((∃ b, f x = .ok b) ↔ accepted x)) :
    (∃ ys, collect f xs = .ok ys) ↔ ∀ x ∈ xs, accepted x := by
  constructor
  · rintro ⟨ys, hys⟩ x hx
    obtain ⟨y, -, hy⟩ := collect_mem_of_mem hys hx
    exact (haccepted x hx).mp ⟨y, hy⟩
  · intro hall
    induction xs with
    | nil => exact ⟨[], rfl⟩
    | cons x xs ih =>
        obtain ⟨hfirst, hrest⟩ := List.forall_mem_cons.mp hall
        obtain ⟨hok, haccepted⟩ := List.forall_mem_cons.mp haccepted
        obtain ⟨y, hy⟩ := hok.mpr hfirst
        obtain ⟨ys, hys⟩ := ih haccepted hrest
        exact ⟨y :: ys, by rw [collect, hy, hys]; rfl⟩

end Rulisp
