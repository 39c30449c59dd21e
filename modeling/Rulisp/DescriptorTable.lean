import Mathlib.Data.Nat.Notation
import Mathlib.Tactic.SplitIfs

/-!
# Tables of descriptors

A table from numbers to the objects that are open.  Replacing an entry drops
the old object, and the number of objects of a kind moves with every entry.
-/

namespace DescriptorTable

universe u

/-- The open objects with their descriptors. -/
abbrev Table (α : Type u) := List (ℕ × α)

variable {α : Type u} (t : Table α) (fd : ℕ) (p : α → Bool)

def find : Table α → Option α
  | [] => none
  | (key, x) :: rest => if key = fd then some x else find rest

def erase : Table α → Table α
  | [] => []
  | (key, x) :: rest => if key = fd then rest else (key, x) :: erase rest

/-- The object that was at `fd`, if any, is dropped. -/
def put (x : α) : Table α := (fd, x) :: erase fd t

/-- The entries whose object has the property. -/
def held : ℕ := t.countP fun entry => p entry.2

variable {t fd p}

@[simp] theorem held_nil : held ([] : Table α) p = 0 := rfl

@[simp] theorem held_cons (key : ℕ) (x : α) (rest : Table α) :
    held ((key, x) :: rest) p = held rest p + (p x).toNat := by
  unfold held
  rw [List.countP_cons]
  cases p x <;> rfl

theorem mem_of_find {x : α} (hfind : find fd t = some x) : (fd, x) ∈ t := by
  induction t with
  | nil => cases hfind
  | cons entry rest ih =>
      obtain ⟨key, y⟩ := entry
      simp only [find] at hfind
      split_ifs at hfind with heq
      · cases hfind
        subst heq
        exact List.mem_cons_self
      · exact List.mem_cons_of_mem _ (ih hfind)

theorem mem_of_mem_erase {entry : ℕ × α} (hmem : entry ∈ erase fd t) :
    entry ∈ t := by
  induction t with
  | nil => exact hmem
  | cons head rest ih =>
      obtain ⟨key, y⟩ := head
      simp only [erase] at hmem
      split_ifs at hmem
      · exact List.mem_cons_of_mem _ hmem
      · rcases List.mem_cons.mp hmem with heq | htail
        · exact heq ▸ List.mem_cons_self
        · exact List.mem_cons_of_mem _ (ih htail)

theorem mem_of_mem_put {entry : ℕ × α} {x : α}
    (hmem : entry ∈ put t fd x) : entry = (fd, x) ∨ entry ∈ t := by
  rcases List.mem_cons.mp hmem with heq | htail
  · exact .inl heq
  · exact .inr (mem_of_mem_erase htail)

theorem erase_of_find_none (hfind : find fd t = none) : erase fd t = t := by
  induction t with
  | nil => rfl
  | cons entry rest ih =>
      obtain ⟨key, y⟩ := entry
      simp only [find] at hfind
      split_ifs at hfind with heq
      simp only [erase, if_neg heq, ih hfind]

theorem find_erase_ne {other : ℕ} (hne : other ≠ fd) :
    find other (erase fd t) = find other t := by
  induction t with
  | nil => rfl
  | cons entry rest ih =>
      obtain ⟨key, y⟩ := entry
      by_cases heq : key = fd
      · simp only [erase, if_pos heq, find, if_neg (heq ▸ Ne.symm hne)]
      · simp only [erase, if_neg heq, find, ih]

theorem held_eq_zero (hnone : ∀ entry ∈ t, p entry.2 = false) :
    held t p = 0 := by
  unfold held
  rw [List.countP_eq_zero]
  intro entry hmem
  rw [hnone entry hmem]
  exact Bool.false_ne_true

/-- Erasing the entry of an object takes one off the count of its kind. -/
theorem held_erase {x : α} (hfind : find fd t = some x) :
    held (erase fd t) p + (p x).toNat = held t p := by
  induction t with
  | nil => cases hfind
  | cons entry rest ih =>
      obtain ⟨key, y⟩ := entry
      simp only [find] at hfind
      simp only [erase, held_cons]
      split_ifs at hfind ⊢ with heq
      · cases hfind
        rfl
      · simp only [held_cons, ← ih hfind]
        omega

theorem held_erase_le : held (erase fd t) p ≤ held t p := by
  cases hfind : find fd t with
  | none => exact Nat.le_of_eq (by rw [erase_of_find_none hfind])
  | some x =>
      rw [← held_erase hfind]
      exact Nat.le_add_right _ _

@[simp] theorem held_put {x : α} :
    held (put t fd x) p = held (erase fd t) p + (p x).toNat :=
  held_cons fd x (erase fd t)

theorem held_put_new {x : α} (hfind : find fd t = none) :
    held (put t fd x) p = held t p + (p x).toNat := by
  rw [held_put, erase_of_find_none hfind]

end DescriptorTable
