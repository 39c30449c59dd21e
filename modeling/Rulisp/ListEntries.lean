import Mathlib.Data.Nat.Notation
import Mathlib.Tactic.SplitIfs

/-!
# Lists whose entries change

A list of parties indexed by position: what replacing one entry does to the
count of a property and to what is known of the other entries.
-/

namespace ListEntries

universe u

/-- Replacing one entry of a list moves the count of a property by the
difference of the two entries. -/
theorem countP_set_add {α : Type u} (p : α → Bool) {xs : List α} {index : ℕ}
    {x : α} (hx : xs[index]? = some x) (y : α) :
    (xs.set index y).countP p + (if p x then 1 else 0) =
      xs.countP p + (if p y then 1 else 0) := by
  obtain ⟨hlt, hget⟩ := List.getElem?_eq_some_iff.mp hx
  have hpos : (if p x then 1 else 0) ≤ xs.countP p := by
    split_ifs with hp
    · exact List.countP_pos_iff.mpr ⟨x, hget ▸ List.getElem_mem hlt, hp⟩
    · exact Nat.zero_le _
  rw [List.countP_set hlt, hget]
  omega

/-- What holds of an entry holds of it after another entry, or the entry
itself, was replaced by one of which it holds too. -/
theorem exists_getElem?_set {α : Type u} {holds : α → Prop} {xs : List α}
    {index other : ℕ} {x y : α} (hx : xs[index]? = some x)
    (hkeeps : holds x → holds y)
    (hother : ∃ z, xs[other]? = some z ∧ holds z) :
    ∃ z, (xs.set index y)[other]? = some z ∧ holds z := by
  obtain ⟨z, hz, hholds⟩ := hother
  by_cases heq : index = other
  · subst heq
    have hlt := (List.getElem?_eq_some_iff.mp hx).1
    rw [hx] at hz
    cases hz
    exact ⟨y, List.getElem?_set_self hlt, hkeeps hholds⟩
  · exact ⟨z, by rw [List.getElem?_set_ne heq, hz], hholds⟩

theorem getElem?_set_of_some {α : Type u} {xs : List α} {index other : ℕ}
    {x y z : α} (hx : xs[index]? = some x)
    (hz : (xs.set index y)[other]? = some z) :
    (other = index ∧ z = y) ∨ (other ≠ index ∧ xs[other]? = some z) := by
  by_cases heq : index = other
  · subst heq
    rw [List.getElem?_set_self (List.getElem?_eq_some_iff.mp hx).1] at hz
    cases hz
    exact .inl ⟨rfl, rfl⟩
  · rw [List.getElem?_set_ne heq] at hz
    exact .inr ⟨Ne.symm heq, hz⟩

end ListEntries
