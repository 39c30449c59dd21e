import Mathlib.Logic.Function.Basic
import Mathlib.Data.Nat.Notation

/-!
# Stored callbacks

`stored-callback.lisp`: closures registered under a numeric id that Rust may
keep and invoke later from any thread.  Every access to the table is one
section under `*stored-callbacks-lock*`, hence one function here.
-/

namespace Rulisp

/-- The registry and the tokens it has handed out. -/
structure StoredCallbacks (K : Type) where
  /-- `*next-callback-id*`, the id given out last. -/
  nextId : ℕ
  /-- `*stored-callbacks*`. -/
  table : ℕ → Option K
  /-- `%token-registered` of each token not yet collected. -/
  tokens : ℕ → Option Bool
  /-- Nothing is known of an id that was not given out. -/
  unissued : ∀ id, nextId < id → table id = none ∧ tokens id = none

section Registry

variable {K : Type}

namespace StoredCallbacks

def empty : StoredCallbacks K where
  nextId := 0
  table := fun _ => none
  tokens := fun _ => none
  unissued := fun _ _ => ⟨rfl, rfl⟩

instance : Inhabited (StoredCallbacks K) := ⟨empty⟩

/-- `callback`: the id of the new token. -/
def callback (stored : StoredCallbacks K) (closure : K) :
    ℕ × StoredCallbacks K :=
  let id := stored.nextId + 1
  (id,
    { nextId := id
      table := Function.update stored.table id (some closure)
      tokens := Function.update stored.tokens id (some true)
      unissued := by
        intro other hother
        have hne : other ≠ id := by omega
        rw [Function.update_of_ne hne, Function.update_of_ne hne]
        exact stored.unissued other (by omega) })

/-- `remhash`, the body of a token's finalizer. -/
def remhash (stored : StoredCallbacks K) (id : ℕ) : StoredCallbacks K :=
  { stored with
    table := Function.update stored.table id none
    unissued := by
      intro other hother
      obtain ⟨htable, htokens⟩ := stored.unissued other hother
      refine ⟨?_, htokens⟩
      by_cases hid : other = id
      · rw [hid, Function.update_self]
      · rw [Function.update_of_ne hid, htable] }

/-- What becomes of the token itself; only tokens there are can change. -/
def setToken (stored : StoredCallbacks K) (id : ℕ) (token : Option Bool)
    (hissued : id ≤ stored.nextId) : StoredCallbacks K :=
  { stored with
    tokens := Function.update stored.tokens id token
    unissued := by
      intro other hother
      have hne : other ≠ id := by omega
      rw [Function.update_of_ne hne]
      exact stored.unissued other hother }

theorem le_nextId_of_token (stored : StoredCallbacks K) {id : ℕ}
    (htoken : (stored.tokens id).isSome = true) : id ≤ stored.nextId := by
  by_contra hid
  have hnone := (stored.unissued id (by omega)).2
  rw [hnone] at htoken
  cases htoken

/-- `unregister-callback` on the token of `id`: whether this call removed the
closure. -/
def unregisterCallback (stored : StoredCallbacks K) (id : ℕ)
    (htoken : (stored.tokens id).isSome = true) : Bool × StoredCallbacks K :=
  ((stored.table id).isSome,
    (stored.remhash id).setToken id (some false)
      (stored.le_nextId_of_token htoken))

/-- The finalizer of the token of `id`, which is collected. -/
def finalize (stored : StoredCallbacks K) (id : ℕ)
    (htoken : (stored.tokens id).isSome = true) : StoredCallbacks K :=
  (stored.remhash id).setToken id none (stored.le_nextId_of_token htoken)

/-- `%stored-callback-lookup`; the id arrives as a `uint64`. -/
def lookup (stored : StoredCallbacks K) (id : UInt64) : Option K :=
  stored.table id.toNat

@[simp] theorem callback_nextId (stored : StoredCallbacks K) (closure : K) :
    (stored.callback closure).2.nextId = stored.nextId + 1 := rfl

@[simp] theorem callback_table (stored : StoredCallbacks K) (closure : K) :
    (stored.callback closure).2.table =
      Function.update stored.table (stored.nextId + 1) (some closure) := rfl

@[simp] theorem unregisterCallback_nextId (stored : StoredCallbacks K)
    {id : ℕ} (htoken : (stored.tokens id).isSome = true) :
    (stored.unregisterCallback id htoken).2.nextId = stored.nextId := rfl

@[simp] theorem unregisterCallback_table (stored : StoredCallbacks K)
    {id : ℕ} (htoken : (stored.tokens id).isSome = true) :
    (stored.unregisterCallback id htoken).2.table =
      Function.update stored.table id none := rfl

@[simp] theorem finalize_nextId (stored : StoredCallbacks K) {id : ℕ}
    (htoken : (stored.tokens id).isSome = true) :
    (stored.finalize id htoken).nextId = stored.nextId := rfl

@[simp] theorem finalize_table (stored : StoredCallbacks K) {id : ℕ}
    (htoken : (stored.tokens id).isSome = true) :
    (stored.finalize id htoken).table =
      Function.update stored.table id none := rfl

end StoredCallbacks

end Registry

end Rulisp
