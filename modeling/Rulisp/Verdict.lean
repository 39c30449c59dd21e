import Mathlib.Data.Nat.Notation
import Mathlib.Tactic.Basic

/-!
# Checks that decide a condition

A check is a computation that returns or fails.  It decides a condition when
it returns exactly if the condition holds, and each of its failures is a
refusal: an error of the kind the check is meant to give.  The rules below
follow the ways checks are put together.
-/

namespace Verdict

universe u

variable {ε : Type u} {refusal : ε → Prop}

/-- The check returns and the condition holds, or it refuses and the
condition fails. -/
def Decides (refusal : ε → Prop) (check : Except ε Unit) (cond : Prop) :
    Prop :=
  (check = .ok () ∧ cond) ∨
    (∃ e, check = .error e ∧ refusal e) ∧ ¬ cond

theorem Decides.ok_iff {check : Except ε Unit} {cond : Prop}
    (hdecides : Decides refusal check cond) : check = .ok () ↔ cond := by
  rcases hdecides with ⟨hok, hcond⟩ | ⟨⟨e, herror, -⟩, hcond⟩
  · exact iff_of_true hok hcond
  · refine iff_of_false ?_ hcond
    rw [herror]
    exact nofun

theorem Decides.refuses {check : Except ε Unit} {cond : Prop}
    (hdecides : Decides refusal check cond) (hcond : ¬ cond) :
    ∃ e, check = .error e ∧ refusal e := by
  rcases hdecides with ⟨-, hholds⟩ | ⟨hrefuses, -⟩
  · exact absurd hholds hcond
  · exact hrefuses

theorem Decides.congr {check : Except ε Unit} {cond other : Prop}
    (hdecides : Decides refusal check cond) (hiff : cond ↔ other) :
    Decides refusal check other := by
  unfold Decides at hdecides ⊢
  rw [← hiff]
  exact hdecides

theorem Decides.accept : Decides refusal (.ok ()) True :=
  .inl ⟨rfl, trivial⟩

theorem Decides.refuse {e : ε} (hrefusal : refusal e) :
    Decides refusal (.error e) False :=
  .inr ⟨⟨e, rfl, hrefusal⟩, id⟩

/-- One check after another; the second may rely on the first. -/
theorem Decides.bind {first : Except ε Unit} {second : Except ε Unit}
    {cond later : Prop} (hfirst : Decides refusal first cond)
    (hsecond : cond → Decides refusal second later) :
    Decides refusal (first >>= fun _ => second) (cond ∧ later) := by
  rcases hfirst with ⟨hok, hcond⟩ | ⟨⟨e, herror, hrefusal⟩, hcond⟩
  · rw [hok]
    rcases hsecond hcond with ⟨hok', hlater⟩ | ⟨hrefuses, hlater⟩
    · exact .inl ⟨hok', hcond, hlater⟩
    · exact .inr ⟨hrefuses, fun hboth => hlater hboth.2⟩
  · rw [herror]
    exact .inr ⟨⟨e, rfl, hrefusal⟩, fun hboth => hcond hboth.1⟩

/-- A check after a computation that refuses or returns a known value. -/
theorem Decides.bind_value {α : Type} {read : Except ε α} {value : α}
    {next : α → Except ε Unit} {cond later : Prop}
    (hread : cond → read = .ok value)
    (hrefuses : ¬ cond → ∃ e, read = .error e ∧ refusal e)
    (hnext : cond → Decides refusal (next value) later) :
    Decides refusal (read >>= next) (cond ∧ later) := by
  by_cases hcond : cond
  · rw [hread hcond]
    rcases hnext hcond with ⟨hok, hlater⟩ | ⟨hrefused, hlater⟩
    · exact .inl ⟨hok, hcond, hlater⟩
    · exact .inr ⟨hrefused, fun hboth => hlater hboth.2⟩
  · obtain ⟨e, herror, hrefusal⟩ := hrefuses hcond
    rw [herror]
    exact .inr ⟨⟨e, rfl, hrefusal⟩, fun hboth => hcond hboth.1⟩

/-- A check after a computation that returns. -/
theorem Decides.read {α : Type} {read : Except ε α} {value : α}
    {next : α → Except ε Unit} {cond : Prop} (hread : read = .ok value)
    (hnext : Decides refusal (next value) cond) :
    Decides refusal (read >>= next) cond := by
  rw [hread]
  exact hnext

/-- A check made only under a test. -/
theorem Decides.ite {test : Prop} [Decidable test] {check : Except ε Unit}
    {cond : Prop} (hcheck : test → Decides refusal check cond) :
    Decides refusal (if test then check else .ok ()) (test → cond) := by
  by_cases htest : test
  · rw [if_pos htest]
    exact (hcheck htest).congr ⟨fun h _ => h, fun h => h htest⟩
  · rw [if_neg htest]
    exact .inl ⟨rfl, fun h => absurd h htest⟩

end Verdict
