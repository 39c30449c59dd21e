import Mathlib.Algebra.BigOperators.Fin
import Mathlib.Algebra.Order.BigOperators.Group.Finset
import Mathlib.Data.Fintype.BigOperators

/-!
# Runs of action-driven transition systems

A system is a partial step function: an action resolves every choice the
modelled program leaves open (which thread moves, what the environment
answers), and `none` says that the action is not enabled.  The run function
is executable, so a concrete interleaving can be evaluated.  The invariant
rule below is the only induction over runs that a safety result needs.
-/

namespace TransitionSystem

universe u v

/-- A transition system whose nondeterminism is resolved by actions. -/
structure System (State : Type u) (Action : Type v) where
  step : State → Action → Option State

variable {State : Type u} {Action : Type v}

/-- Execute a list of actions; `none` as soon as one of them is disabled. -/
def System.run (system : System State Action) : State → List Action → Option State
  | state, [] => some state
  | state, action :: rest =>
      match system.step state action with
      | none => none
      | some next => system.run next rest

/-- `finish` is the state after some finite run from `start`. -/
def System.Reaches
    (system : System State Action) (start finish : State) : Prop :=
  ∃ actions, system.run start actions = some finish

@[simp] theorem System.run_nil (system : System State Action) (state : State) :
    system.run state [] = some state := rfl

theorem System.run_append
    (system : System State Action) (state : State)
    (before after : List Action) :
    system.run state (before ++ after) =
      (system.run state before).bind fun middle => system.run middle after := by
  induction before generalizing state with
  | nil => rfl
  | cons action rest ih =>
      simp only [List.cons_append, System.run]
      cases hstep : system.step state action with
      | none => rfl
      | some next => exact ih next

theorem System.Reaches.refl
    (system : System State Action) (state : State) :
    system.Reaches state state :=
  ⟨[], rfl⟩

theorem System.Reaches.tail
    {system : System State Action} {start state next : State} {action : Action}
    (hreach : system.Reaches start state)
    (hstep : system.step state action = some next) :
    system.Reaches start next := by
  obtain ⟨actions, hrun⟩ := hreach
  refine ⟨actions ++ [action], ?_⟩
  rw [System.run_append, hrun]
  simp [System.run, hstep]

/-- What holds at the start and survives every step holds after every run. -/
theorem System.run_invariant
    {system : System State Action} {inv : State → Prop}
    (hstep : ∀ state action next,
      inv state → system.step state action = some next → inv next)
    {start finish : State} {actions : List Action}
    (hstart : inv start) (hrun : system.run start actions = some finish) :
    inv finish := by
  induction actions generalizing start with
  | nil =>
      simp only [System.run_nil, Option.some.injEq] at hrun
      exact hrun ▸ hstart
  | cons action rest ih =>
      simp only [System.run] at hrun
      cases hnext : system.step start action with
      | none => simp [hnext] at hrun
      | some next =>
          rw [hnext] at hrun
          exact ih (hstep start action next hstart hnext) hrun

theorem System.Reaches.invariant
    {system : System State Action} {inv : State → Prop}
    (hstep : ∀ state action next,
      inv state → system.step state action = some next → inv next)
    {start finish : State}
    (hreach : system.Reaches start finish) (hstart : inv start) :
    inv finish := by
  obtain ⟨actions, hrun⟩ := hreach
  exact System.run_invariant hstep hstart hrun

/-- The invariant rule with a history kept beside the state. -/
theorem System.run_history {History : Type*}
    {system : System State Action} {record : History → Action → History}
    {inv : History → State → Prop}
    (hstep : ∀ history state action next,
      inv history state → system.step state action = some next →
        inv (record history action) next)
    {history : History} {start finish : State} {actions : List Action}
    (hstart : inv history start)
    (hrun : system.run start actions = some finish) :
    inv (actions.foldl record history) finish := by
  induction actions generalizing history start with
  | nil =>
      simp only [System.run_nil, Option.some.injEq] at hrun
      exact hrun ▸ hstart
  | cons action rest ih =>
      simp only [System.run] at hrun
      cases hnext : system.step start action with
      | none => simp [hnext] at hrun
      | some next =>
          rw [hnext] at hrun
          exact ih (hstep history start action next hstart hnext) hrun

/-- A run makes no more steps of a kind than a measure allows that every
step of that kind lowers and no other raises. -/
theorem System.run_measure {system : System State Action}
    {inv : State → Prop} {allowed : Action → Prop} {measure : State → ℕ}
    {counts : Action → Bool}
    (hstep : ∀ state action next, inv state → allowed action →
      system.step state action = some next →
        inv next ∧
          measure next + (if counts action then 1 else 0) ≤ measure state)
    {start finish : State} {actions : List Action} (hstart : inv start)
    (hallowed : ∀ action ∈ actions, allowed action)
    (hrun : system.run start actions = some finish) :
    measure finish + actions.countP counts ≤ measure start := by
  induction actions generalizing start with
  | nil =>
      simp only [System.run_nil, Option.some.injEq] at hrun
      simp [hrun]
  | cons action rest ih =>
      simp only [System.run] at hrun
      cases hnext : system.step start action with
      | none => simp [hnext] at hrun
      | some next =>
          rw [hnext] at hrun
          obtain ⟨hinv, hlower⟩ := hstep start action next hstart
            (hallowed action List.mem_cons_self) hnext
          have hrest := ih hinv
            (fun later hlater =>
              hallowed later (List.mem_cons_of_mem _ hlater)) hrun
          rw [List.countP_cons]
          omega

/-- Every step of the run from `state` meets the condition. -/
def System.RunMeets (system : System State Action)
    (cond : State → Action → Prop) : State → List Action → Prop
  | _, [] => True
  | state, action :: rest =>
      cond state action ∧
        match system.step state action with
        | none => True
        | some next => system.RunMeets cond next rest

theorem System.RunMeets.of_forall (system : System State Action)
    {cond : State → Action → Prop} {actions : List Action}
    (hall : ∀ action ∈ actions, ∀ state, cond state action) (state : State) :
    system.RunMeets cond state actions := by
  induction actions generalizing state with
  | nil => trivial
  | cons action rest ih =>
      refine ⟨hall action List.mem_cons_self state, ?_⟩
      cases system.step state action with
      | none => trivial
      | some next =>
          exact ih (fun later hlater =>
            hall later (List.mem_cons_of_mem _ hlater)) next

instance System.RunMeets.decidable (system : System State Action)
    {cond : State → Action → Prop}
    [∀ state action, Decidable (cond state action)] :
    ∀ state actions, Decidable (system.RunMeets cond state actions)
  | _, [] => .isTrue trivial
  | state, action :: rest =>
      let _ : Decidable
          (match system.step state action with
          | none => True
          | some next => system.RunMeets cond next rest) :=
        match system.step state action with
        | none => .isTrue trivial
        | some next => decidable system next rest
      inferInstanceAs (Decidable (cond state action ∧ _))

/-- The invariant rule for runs whose steps all meet a condition. -/
theorem System.RunMeets.invariant
    {system : System State Action} {cond : State → Action → Prop}
    {inv : State → Prop}
    (hstep : ∀ state action next, cond state action →
      inv state → system.step state action = some next → inv next)
    {start finish : State} {actions : List Action}
    (hmeets : system.RunMeets cond start actions)
    (hrun : system.run start actions = some finish) (hstart : inv start) :
    inv finish := by
  induction actions generalizing start with
  | nil =>
      simp only [System.run_nil, Option.some.injEq] at hrun
      exact hrun ▸ hstart
  | cons action rest ih =>
      obtain ⟨hcond, hrest⟩ := hmeets
      simp only [System.run] at hrun
      cases hnext : system.step start action with
      | none => simp [hnext] at hrun
      | some next =>
          simp only [hnext] at hrun hrest
          exact ih hrest hrun (hstep start action next hcond hstart hnext)

/-- A condition that follows from another one and an invariant. -/
theorem System.RunMeets.of_invariant
    {system : System State Action} {cond meets : State → Action → Prop}
    {inv : State → Prop}
    (hstep : ∀ state action next, cond state action →
      inv state → system.step state action = some next → inv next)
    (hmeets : ∀ state action, cond state action → inv state →
      meets state action)
    {start : State} {actions : List Action}
    (hcond : system.RunMeets cond start actions) (hstart : inv start) :
    system.RunMeets meets start actions := by
  induction actions generalizing start with
  | nil => trivial
  | cons action rest ih =>
      obtain ⟨hfirst, hrest⟩ := hcond
      refine ⟨hmeets start action hfirst hstart, ?_⟩
      cases hnext : system.step start action with
      | none => trivial
      | some next =>
          rw [hnext] at hrest
          exact ih hrest (hstep start action next hfirst hstart hnext)

/-! ## Folds of operations -/

section Folds

variable {Op : Type v} {View : Type*}

/-- What no operation of the list touches is as it was. -/
theorem foldl_view_eq {perform : State → Op → State} (view : State → View)
    {ops : List Op}
    (hkeeps : ∀ op ∈ ops, ∀ state, view (perform state op) = view state)
    (state : State) :
    view (ops.foldl perform state) = view state := by
  induction ops generalizing state with
  | nil => rfl
  | cons op rest ih =>
      have hrest : ∀ later ∈ rest, ∀ s, view (perform s later) = view s :=
        fun later hlater => hkeeps later (List.mem_cons_of_mem _ hlater)
      rw [List.foldl_cons, ih hrest, hkeeps op List.mem_cons_self]

/-- What one operation sets and the others set to the same or leave alone. -/
theorem foldl_view_set {perform : State → Op → State} (view : State → View)
    {value : View} {ops : List Op} {op : Op} (hop : op ∈ ops)
    (hsets : ∀ state, view (perform state op) = value)
    (hkeeps : ∀ other ∈ ops, ∀ state,
      view (perform state other) = view state ∨
        view (perform state other) = value)
    (state : State) :
    view (ops.foldl perform state) = value := by
  induction ops using List.reverseRecOn with
  | nil => cases hop
  | append_singleton before last ih =>
      rw [List.foldl_concat]
      rcases List.mem_append.mp hop with hbefore | hlast
      · have hset := ih hbefore fun other hother =>
          hkeeps other (List.mem_append_left _ hother)
        rcases hkeeps last (by simp) (before.foldl perform state) with
          hsame | hvalue
        · rw [hsame, hset]
        · exact hvalue
      · rw [List.mem_singleton] at hlast
        rw [← hlast]
        exact hsets _

end Folds

/-! ## Guarded histories -/

section Histories

variable {Event : Type u}

/-- Every event of a history was admitted by the events before it. -/
def Guarded (admits : List Event → Event → Prop) (history : List Event) : Prop :=
  ∀ before event after,
    history = before ++ event :: after → admits before event

theorem Guarded.nil (admits : List Event → Event → Prop) :
    Guarded admits [] := by
  intro before event after hsplit
  simp at hsplit

/-- A history is guarded when it is extended only by admitted events. -/
theorem Guarded.append {admits : List Event → Event → Prop}
    {history : List Event} (hguarded : Guarded admits history)
    {event : Event} (hadmits : admits history event) :
    Guarded admits (history ++ [event]) := by
  intro before later after hsplit
  rcases List.append_eq_append_iff.mp hsplit with
    ⟨middle, hbefore, hmiddle⟩ | ⟨middle, hhistory, hmiddle⟩
  · cases middle with
    | nil =>
        simp only [List.nil_append, List.cons.injEq] at hmiddle
        simpa [hbefore, hmiddle.1] using hadmits
    | cons first rest => simp at hmiddle
  · cases middle with
    | nil =>
        simp only [List.nil_append, List.cons.injEq] at hmiddle
        simpa [hhistory, hmiddle.1] using hadmits
    | cons first rest =>
        simp only [List.cons_append, List.cons.injEq] at hmiddle
        exact hguarded before later rest (by rw [hhistory, hmiddle.1])

theorem Guarded.of_append {admits : List Event → Event → Prop}
    {history rest : List Event} (hguarded : Guarded admits (history ++ rest)) :
    Guarded admits history := by
  intro before event after hsplit
  exact hguarded before event (after ++ rest) (by simp [hsplit])

/-- Of two different events of a guarded history one was admitted with the
other before it. -/
theorem Guarded.ordered {admits : List Event → Event → Prop}
    {history : List Event} (hguarded : Guarded admits history)
    {left right : Event} (hleft : left ∈ history) (hright : right ∈ history)
    (hne : left ≠ right) :
    (∃ before, right ∈ before ∧ admits before left) ∨
      ∃ before, left ∈ before ∧ admits before right := by
  obtain ⟨before, after, hsplit⟩ := List.append_of_mem hleft
  rw [hsplit] at hright
  rcases List.mem_append.mp hright with hbefore | hright
  · exact .inl ⟨before, hbefore, hguarded before left after hsplit⟩
  · rcases List.mem_cons.mp hright with heq | hafter
    · exact absurd heq.symm hne
    · obtain ⟨middle, rest, hrest⟩ := List.append_of_mem hafter
      refine .inr ⟨before ++ left :: middle, by simp, ?_⟩
      exact hguarded _ right rest (by simp [hsplit, hrest])

end Histories

/-! ## Weights of per-thread data -/

/-- Replacing one thread's entry moves the total weight by the difference of
the two entries; stated additively, so that `omega` can use it. -/
theorem sum_update_add
    {n : ℕ} {α : Type v} (weight : α → ℕ)
    (entries : Fin n → α) (thread : Fin n) (entry : α) :
    (∑ other, weight (Function.update entries thread entry other)) +
        weight (entries thread) =
      (∑ other, weight (entries other)) + weight entry := by
  classical
  have hrest :
      (∑ other ∈ Finset.univ.erase thread,
          weight (Function.update entries thread entry other)) =
        ∑ other ∈ Finset.univ.erase thread, weight (entries other) := by
    apply Finset.sum_congr rfl
    intro other hother
    rw [Function.update_of_ne (Finset.ne_of_mem_erase hother)]
  rw [← Finset.sum_erase_add _ _ (Finset.mem_univ thread), hrest,
    Function.update_self,
    ← Finset.sum_erase_add Finset.univ (fun other => weight (entries other))
      (Finset.mem_univ thread)]
  omega

theorem weight_le_sum
    {n : ℕ} {α : Type v} (weight : α → ℕ)
    (entries : Fin n → α) (thread : Fin n) :
    weight (entries thread) ≤ ∑ other, weight (entries other) :=
  Finset.single_le_sum
    (f := fun other => weight (entries other))
    (fun _ _ => Nat.zero_le _) (Finset.mem_univ thread)

end TransitionSystem
