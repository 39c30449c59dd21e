import Mathlib.Algebra.Order.BigOperators.Group.List
import Mathlib.Algebra.Order.Ring.Nat
import Rulisp.ListEntries

/-!
# Counting semaphores

A semaphore whose permits are held by the entries of a list: what is free and
what is held make up the total, whatever the entries do with their permits.
-/

namespace Permits

open ListEntries

universe u

variable {α : Type u}

/-- The free permits and the entries that hold one make up the total. -/
def Balanced (holds : α → Bool) (total available : ℕ) (entries : List α) :
    Prop :=
  available + entries.countP holds = total

section Balanced

variable {holds : α → Bool} {total available : ℕ} {entries : List α}

theorem Balanced.nil : Balanced holds total total [] := rfl

theorem Balanced.held_le (hbalanced : Balanced holds total available entries) :
    entries.countP holds ≤ total := by
  unfold Balanced at hbalanced
  omega

theorem Balanced.available_le
    (hbalanced : Balanced holds total available entries) :
    available ≤ total := by
  unfold Balanced at hbalanced
  omega

theorem Balanced.held_eq (hbalanced : Balanced holds total available entries) :
    total - available = entries.countP holds := by
  unfold Balanced at hbalanced
  omega

theorem Balanced.all_free (hbalanced : Balanced holds total available entries)
    (hnone : ∀ x ∈ entries, holds x = false) : available = total := by
  have hzero : entries.countP holds = 0 := by
    rw [List.countP_eq_zero]
    intro x hx
    rw [hnone x hx]
    exact Bool.false_ne_true
  unfold Balanced at hbalanced
  omega

theorem Balanced.append (hbalanced : Balanced holds total available entries)
    {x : α} (hx : holds x = false) :
    Balanced holds total available (entries ++ [x]) := by
  unfold Balanced at hbalanced ⊢
  rw [List.countP_append, List.countP_singleton, hx]
  exact hbalanced

theorem Balanced.append_holding
    (hbalanced : Balanced holds total (available + 1) entries) {x : α}
    (hx : holds x = true) :
    Balanced holds total available (entries ++ [x]) := by
  unfold Balanced at hbalanced ⊢
  rw [List.countP_append, List.countP_singleton, hx, if_pos rfl]
  omega

variable {index : ℕ} {x y : α}

theorem Balanced.keep (hbalanced : Balanced holds total available entries)
    (hx : entries[index]? = some x) (hsame : holds y = holds x) :
    Balanced holds total available (entries.set index y) := by
  have hcount := countP_set_add holds hx y
  rw [hsame] at hcount
  unfold Balanced at hbalanced ⊢
  omega

theorem Balanced.acquire
    (hbalanced : Balanced holds total (available + 1) entries)
    (hx : entries[index]? = some x) (hbefore : holds x = false)
    (hafter : holds y = true) :
    Balanced holds total available (entries.set index y) := by
  have hcount := countP_set_add holds hx y
  rw [hbefore, hafter, if_neg Bool.false_ne_true, if_pos rfl] at hcount
  unfold Balanced at hbalanced ⊢
  omega

theorem Balanced.release (hbalanced : Balanced holds total available entries)
    (hx : entries[index]? = some x) (hbefore : holds x = true)
    (hafter : holds y = false) :
    Balanced holds total (available + 1) (entries.set index y) := by
  have hcount := countP_set_add holds hx y
  rw [hbefore, hafter, if_neg Bool.false_ne_true, if_pos rfl] at hcount
  unfold Balanced at hbalanced ⊢
  omega

/-- Two lists entry by entry: where the one is counted, so is the other. -/
theorem countP_le_of_entries {β : Type u} {p : α → Bool} {q : β → Bool}
    {xs : List α} {ys : List β} (hlength : ys.length = xs.length)
    (himp : ∀ (index : ℕ) (x : α) (y : β), xs[index]? = some x →
      ys[index]? = some y → p x = true → q y = true) :
    xs.countP p ≤ ys.countP q := by
  induction xs generalizing ys with
  | nil => exact Nat.zero_le _
  | cons x xs ih =>
      cases ys with
      | nil => cases hlength
      | cons y ys =>
          have htail : xs.countP p ≤ ys.countP q :=
            ih (Nat.succ.inj hlength) fun index => himp (index + 1)
          have hhead : p x = true → q y = true := himp 0 x y rfl rfl
          rw [List.countP_cons, List.countP_cons]
          split_ifs with hp hq hq
          · omega
          · exact absurd (hhead hp) hq
          · omega
          · omega

theorem sum_map_le {β : Type u} {weight : β → ℕ} {bound : ℕ} {entries : List β}
    (hbound : ∀ x ∈ entries, weight x ≤ bound) :
    (entries.map weight).sum ≤ entries.length * bound := by
  have hsum := List.sum_le_card_nsmul (entries.map weight) bound fun w hw => by
    obtain ⟨x, hx, rfl⟩ := List.mem_map.mp hw
    exact hbound x hx
  rwa [List.length_map, nsmul_eq_mul, Nat.cast_id] at hsum

/-- What each entry weighs at most bounds the weight of the holders. -/
theorem Balanced.weight_le (hbalanced : Balanced holds total available entries)
    {weight : α → ℕ} {bound : ℕ} (hbound : ∀ x ∈ entries, weight x ≤ bound) :
    ((entries.filter holds).map weight).sum ≤ total * bound := by
  have hsum : ((entries.filter holds).map weight).sum ≤
      (entries.filter holds).length * bound :=
    sum_map_le fun x hx => hbound x (List.mem_filter.mp hx).1
  rw [← List.countP_eq_length_filter] at hsum
  exact hsum.trans (Nat.mul_le_mul_right bound hbalanced.held_le)

end Balanced

end Permits
