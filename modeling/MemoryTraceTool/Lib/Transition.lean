import Mathlib.Logic.Function.Basic

/-!
# Transition systems with computed steps

A label names the acting thread together with every choice the environment
makes, so a step is a partial function of the state and the label.  Runs are
restricted by a guard, a condition on the state before a step and on its
label; the unrestricted runs are those of the trivial guard.
-/

namespace Transition

/-- The states a run may start in, and the successor a label leads to. -/
structure System (State : Type u) (Label : Type v) where
  init : State → Prop
  next : State → Label → Option State

namespace System

variable {State : Type u} {Label : Type v} (system : System State Label)

/-- States reached by runs whose every step meets `guard`. -/
inductive ReachableBy (guard : State → Label → Prop) : State → Prop where
  | start {state : State} : system.init state → ReachableBy guard state
  | step {state target : State} {label : Label} :
      ReachableBy guard state → guard state label →
      system.next state label = some target →
      ReachableBy guard target

/-- States reached by any run. -/
abbrev Reachable : State → Prop :=
  system.ReachableBy fun _ _ => True

/-- Continuations of a run whose every further step meets `guard`. -/
inductive StepsBy (guard : State → Label → Prop) :
    State → State → Prop where
  | refl (state : State) : StepsBy guard state state
  | tail {source state target : State} {label : Label} :
      StepsBy guard source state → guard state label →
      system.next state label = some target →
      StepsBy guard source target

variable {system} {guard : State → Label → Prop}

/-- An invariant holds initially and is kept by each guarded step. -/
theorem ReachableBy.invariant (Inv : State → Prop)
    (initial : ∀ state, system.init state → Inv state)
    (preserved : ∀ state label target, Inv state → guard state label →
      system.next state label = some target → Inv target)
    {state : State} (reachable : system.ReachableBy guard state) :
    Inv state := by
  induction reachable with
  | start initialState => exact initial _ initialState
  | step _ allowed taken induction =>
      exact preserved _ _ _ induction allowed taken

theorem ReachableBy.extend {state target : State}
    (reachable : system.ReachableBy guard state)
    (steps : system.StepsBy guard state target) :
    system.ReachableBy guard target := by
  induction steps with
  | refl => exact reachable
  | tail _ allowed taken induction => exact .step induction allowed taken

theorem ReachableBy.mono {weaker : State → Label → Prop}
    (implies : ∀ state label, guard state label → weaker state label)
    {state : State} (reachable : system.ReachableBy guard state) :
    system.ReachableBy weaker state := by
  induction reachable with
  | start initialState => exact .start initialState
  | step _ allowed taken induction =>
      exact .step induction (implies _ _ allowed) taken

theorem StepsBy.trans {source middle target : State}
    (first : system.StepsBy guard source middle)
    (second : system.StepsBy guard middle target) :
    system.StepsBy guard source target := by
  induction second with
  | refl => exact first
  | tail _ allowed taken induction => exact .tail induction allowed taken

theorem StepsBy.mono {weaker : State → Label → Prop}
    (implies : ∀ state label, guard state label → weaker state label)
    {source target : State} (steps : system.StepsBy guard source target) :
    system.StepsBy weaker source target := by
  induction steps with
  | refl => exact .refl _
  | tail _ allowed taken induction =>
      exact .tail induction (implies _ _ allowed) taken

/-- A property that each step keeps is kept by every continuation. -/
theorem StepsBy.preserves (Inv : State → Prop)
    (preserved : ∀ state label target, Inv state → guard state label →
      system.next state label = some target → Inv target)
    {source target : State} (steps : system.StepsBy guard source target)
    (holds : Inv source) : Inv target := by
  induction steps with
  | refl => exact holds
  | tail _ allowed taken induction =>
      exact preserved _ _ _ induction allowed taken

variable (system) (guard)

/-- Execute a list of labels, checking the guard before each step. -/
def runBy [∀ state label, Decidable (guard state label)] :
    State → List Label → Option State
  | state, [] => some state
  | state, label :: rest =>
      if guard state label then
        (system.next state label).bind fun target => runBy target rest
      else
        none

/-- Execute a list of labels. -/
def run (state : State) (labels : List Label) : Option State :=
  system.runBy (fun _ _ => True) state labels

variable {system} {guard}

theorem reachableBy_of_runBy
    [∀ state label, Decidable (guard state label)]
    {labels : List Label} {state target : State}
    (reachable : system.ReachableBy guard state)
    (executed : system.runBy guard state labels = some target) :
    system.ReachableBy guard target := by
  induction labels generalizing state with
  | nil =>
      simp only [runBy, Option.some.injEq] at executed
      exact executed ▸ reachable
  | cons label rest induction =>
      simp only [runBy] at executed
      split at executed
      · rename_i allowed
        obtain ⟨middle, taken, remaining⟩ :=
          Option.bind_eq_some_iff.mp executed
        exact induction (.step reachable allowed taken) remaining
      · contradiction

/-- A run whose labels all meet the guard, whatever the state. -/
theorem stepsBy_of_run {labels : List Label} {state target : State}
    (allowed : ∀ label ∈ labels, ∀ passed, guard passed label)
    (executed : system.run state labels = some target) :
    system.StepsBy guard state target := by
  induction labels generalizing state with
  | nil =>
      simp only [run, runBy, Option.some.injEq] at executed
      exact executed ▸ .refl state
  | cons label rest induction =>
      obtain ⟨first, later⟩ := List.forall_mem_cons.mp allowed
      simp only [run, runBy, if_true] at executed
      obtain ⟨middle, taken, remaining⟩ :=
        Option.bind_eq_some_iff.mp executed
      exact (StepsBy.tail (.refl state) (first state) taken).trans
        (induction later remaining)

theorem reachableBy_of_run {labels : List Label} {state target : State}
    (reachable : system.ReachableBy guard state)
    (allowed : ∀ label ∈ labels, ∀ passed, guard passed label)
    (executed : system.run state labels = some target) :
    system.ReachableBy guard target :=
  reachable.extend (stepsBy_of_run allowed executed)

theorem stepsBy_of_runBy
    [∀ state label, Decidable (guard state label)]
    {labels : List Label} {state target : State}
    (executed : system.runBy guard state labels = some target) :
    system.StepsBy guard state target := by
  induction labels generalizing state with
  | nil =>
      simp only [runBy, Option.some.injEq] at executed
      exact executed ▸ .refl state
  | cons label rest induction =>
      simp only [runBy] at executed
      split at executed
      · rename_i allowed
        obtain ⟨middle, taken, remaining⟩ :=
          Option.bind_eq_some_iff.mp executed
        exact (StepsBy.tail (.refl state) allowed taken).trans
          (induction remaining)
      · contradiction

variable (system) (guard)

/-- A list of labels that runs to a state with a decidable property gives a
reachable state with that property. -/
theorem exists_reachableBy_of_runBy
    [∀ state label, Decidable (guard state label)]
    (test : State → Bool) {state : State} (labels : List Label)
    (initial : system.init state)
    (executed : (system.runBy guard state labels).any test = true) :
    ∃ target, system.ReachableBy guard target ∧ test target = true := by
  cases outcome : system.runBy guard state labels with
  | none => simp [outcome] at executed
  | some target =>
      refine ⟨target, reachableBy_of_runBy (.start initial) outcome, ?_⟩
      simpa [outcome] using executed

theorem exists_reachable_of_run
    (test : State → Bool) {state : State} (labels : List Label)
    (initial : system.init state)
    (executed : (system.run state labels).any test = true) :
    ∃ target, system.Reachable target ∧ test target = true :=
  exists_reachableBy_of_runBy system (fun _ _ => True) test labels initial
    executed

/-! ## Single runs -/

/-- The states that a run goes through, the first one included; it ends at the
first label that cannot be taken. -/
def visited : State → List Label → List State
  | state, [] => [state]
  | state, label :: rest =>
      state :: match system.next state label with
        | some target => visited target rest
        | none => []

/-- Every step of the run meets `guard`. -/
def Meets (guard : State → Label → Prop) : State → List Label → Prop
  | _, [] => True
  | state, label :: rest =>
      match system.next state label with
      | some target => guard state label ∧ Meets guard target rest
      | none => True

variable {system} {guard}

/-- When each step out of a good state leads to a good one exactly if it meets
the guard, a run from a good state stays good exactly if all its steps do. -/
theorem forall_visited_iff_meets {Inv Good : State → Prop}
    (preserved : ∀ state label target, Inv state → Good state →
      guard state label → system.next state label = some target →
      Inv target)
    (exact_ : ∀ state label target, Inv state → Good state →
      system.next state label = some target →
      (Good target ↔ guard state label))
    {state : State} (inv : Inv state) (good : Good state)
    (labels : List Label) :
    (∀ passed ∈ system.visited state labels, Good passed) ↔
      system.Meets guard state labels := by
  induction labels generalizing state with
  | nil => simpa [visited, Meets] using good
  | cons label rest induction =>
      simp only [visited, Meets]
      cases taken : system.next state label with
      | none => simpa using good
      | some target =>
          simp only [List.forall_mem_cons]
          have step := exact_ state label target inv good taken
          constructor
          · rintro ⟨-, later⟩
            have targetGood : Good target := by
              apply later
              cases rest <;> simp [visited]
            have allowed := step.mp targetGood
            have targetInv := preserved state label target inv good allowed
              taken
            exact ⟨allowed, (induction targetInv targetGood).mp later⟩
          · rintro ⟨allowed, meets⟩
            have targetInv := preserved state label target inv good allowed
              taken
            exact ⟨good, (induction targetInv (step.mpr allowed)).mpr meets⟩

end System

/-- After one of many has moved, each is the one that moved or where it
was. -/
theorem moved_cases {Thread : Type u} {Local : Type v} [DecidableEq Thread]
    {locals later : Thread → Local} {thread : Thread} {moved : Local}
    (moves : later = Function.update locals thread moved) (other : Thread) :
    other = thread ∧ later other = moved ∨
      other ≠ thread ∧ later other = locals other := by
  rw [moves]
  by_cases same : other = thread
  · exact .inl ⟨same, by rw [same, Function.update_self]⟩
  · exact .inr ⟨same, Function.update_of_ne same moved locals⟩

end Transition
