import MemoryTraceTool.Lib.Locking

/-!
# Mutexes that are initialised once

A mutex is initialised behind a flag, which is tested again under a guard
mutex, and used only where the flag was found set.  It is then as exclusive as
a mutex that is never initialised: nobody has reached it when it is.
-/

namespace Locking

open Transition

variable {Mutex : Type u} {Flag : Type v} {Thread : Type w} {Call : Type x}
  [DecidableEq Mutex] [DecidableEq Flag] [DecidableEq Thread]

/-- The section of the guard. -/
def lazyInitBody (flag : Flag) (mutex : Mutex) : Program Mutex Flag :=
  .test flag .skip (.seq (.init [mutex]) (.set flag true))

def lazyInit (flag : Flag) (guard mutex : Mutex) : Program Mutex Flag :=
  .test flag .skip (.within [guard] (lazyInitBody flag mutex))

/-- The mutex is used only where the flag was found set. -/
def Program.Behind (flag : Flag) (mutex : Mutex) :
    Program Mutex Flag → Prop
  | .skip | .fork | .init _ | .set _ _ => True
  | .seq first second | .alt first second =>
      first.Behind flag mutex ∧ second.Behind flag mutex
  | .loop body => body.Behind flag mutex
  | .within mutexes body => mutex ∉ mutexes ∧ body.Behind flag mutex
  | .tryWithin other body => other ≠ mutex ∧ body.Behind flag mutex
  | .test other yes no =>
      (other = flag ∨ yes.Behind flag mutex) ∧ no.Behind flag mutex

def Frame.Behind (flag : Flag) (mutex : Mutex) : Frame Mutex Flag → Prop
  | .run program => program.Behind flag mutex
  | .acquire pending taken body =>
      mutex ∉ pending ∧ mutex ∉ taken ∧ body.Behind flag mutex
  | .release other => other ≠ mutex

/-- The mutex is initialised, and the flag set, by `lazyInit` alone. -/
def Program.Lazy (flag : Flag) (guard mutex : Mutex) :
    Program Mutex Flag → Prop
  | .skip | .fork => True
  | .seq first second | .alt first second =>
      first.Lazy flag guard mutex ∧ second.Lazy flag guard mutex
  | .loop body | .within _ body | .tryWithin _ body =>
      body.Lazy flag guard mutex
  | .init mutexes => mutex ∉ mutexes
  | .set other _ => other ≠ flag
  | .test other yes no =>
      .test other yes no = lazyInit flag guard mutex ∨
        yes.Lazy flag guard mutex ∧ no.Lazy flag guard mutex

def Frame.Lazy (flag : Flag) (guard mutex : Mutex) : Frame Mutex Flag → Prop
  | .run program | .acquire _ _ program => program.Lazy flag guard mutex
  | .release _ => True

/-- What a call may do to the mutex, its flag and its guard. -/
structure Program.UsesLazily (flag : Flag) (guard mutex : Mutex)
    (program : Program Mutex Flag) : Prop where
  behind : program.Behind flag mutex
  lazy : program.Lazy flag guard mutex
  guarded : guard ∉ program.inits

/-! ## While the flag is not set -/

omit [DecidableEq Mutex] [DecidableEq Flag] in
theorem behind_releases {flag : Flag} {mutex : Mutex} {taken : List Mutex}
    {rest : List (Frame Mutex Flag)} (clear : mutex ∉ taken)
    (behind : ∀ frame ∈ rest, frame.Behind flag mutex) :
    ∀ frame ∈ taken.map .release ++ rest, frame.Behind flag mutex := by
  intro frame member
  rcases List.mem_append.mp member with released | later
  · obtain ⟨other, isTaken, rfl⟩ := List.mem_map.mp released
    rintro rfl
    exact clear isTaken
  · exact behind frame later

theorem ThreadStep.behind {flag : Flag} {mutex : Mutex}
    {shared after : Shared Mutex Flag} {frames rest : List (Frame Mutex Flag)}
    (step : ThreadStep shared frames after rest)
    (unset : shared.flags flag = false)
    (behind : ∀ frame ∈ frames, frame.Behind flag mutex) :
    ∀ frame ∈ rest, frame.Behind flag mutex := by
  cases step with
  | skip | fork | leave | tryFails | init | set | unlock =>
      exact (List.forall_mem_cons.mp behind).2
  | seq =>
      obtain ⟨⟨first, second⟩, others⟩ := List.forall_mem_cons.mp behind
      rw [List.forall_mem_cons, List.forall_mem_cons]
      exact ⟨first, second, others⟩
  | alt branch =>
      obtain ⟨⟨first, second⟩, others⟩ := List.forall_mem_cons.mp behind
      rw [List.forall_mem_cons]
      refine ⟨?_, others⟩
      rcases branch with rfl | rfl
      · exact first
      · exact second
  | @test other =>
      obtain ⟨⟨yes, no⟩, others⟩ := List.forall_mem_cons.mp behind
      rw [List.forall_mem_cons]
      refine ⟨?_, others⟩
      rcases yes with rfl | yes
      · rw [unset]
        exact no
      · split
        · exact yes
        · exact no
  | turn =>
      obtain ⟨body, _⟩ := List.forall_mem_cons.mp behind
      rw [List.forall_mem_cons]
      exact ⟨body, behind⟩
  | within =>
      obtain ⟨⟨clear, body⟩, others⟩ := List.forall_mem_cons.mp behind
      rw [List.forall_mem_cons]
      exact ⟨⟨clear, List.not_mem_nil, body⟩, others⟩
  | tryLocks =>
      obtain ⟨⟨different, body⟩, others⟩ := List.forall_mem_cons.mp behind
      rw [List.forall_mem_cons, List.forall_mem_cons]
      exact ⟨body, different, others⟩
  | enter =>
      obtain ⟨⟨_, clear, body⟩, others⟩ := List.forall_mem_cons.mp behind
      rw [List.forall_mem_cons]
      exact ⟨body, behind_releases clear others⟩
  | lock =>
      obtain ⟨⟨pending, taken, body⟩, others⟩ :=
        List.forall_mem_cons.mp behind
      rw [List.mem_cons, not_or] at pending
      obtain ⟨different, pending⟩ := pending
      rw [List.forall_mem_cons]
      refine ⟨⟨pending, ?_, body⟩, others⟩
      simpa [different] using taken

omit [DecidableEq Flag] in
/-- A thread that stays behind the flag holds no such mutex. -/
theorem count_held_of_behind {flag : Flag} {mutex : Mutex}
    {frames : List (Frame Mutex Flag)}
    (behind : ∀ frame ∈ frames, frame.Behind flag mutex) :
    (held frames).count mutex = 0 := by
  rw [List.count_eq_zero]
  intro member
  obtain ⟨frame, isFrame, holds⟩ := List.mem_flatMap.mp member
  have stays := behind frame isFrame
  cases frame with
  | run => cases holds
  | acquire => exact stays.2.1 holds
  | release => exact stays (List.mem_singleton.mp holds).symm

/-! ## Inside the initialisation -/

/-- Where a thread stands in `lazyInit`, given the flag. -/
inductive LazyPosition (flag : Flag) (guard mutex : Mutex) :
    Bool → List (Frame Mutex Flag) → Prop where
  | apart {value : Bool} {frames : List (Frame Mutex Flag)}
      (lazy : ∀ frame ∈ frames, frame.Lazy flag guard mutex) :
      LazyPosition flag guard mutex value frames
  | entering {value : Bool} {rest : List (Frame Mutex Flag)}
      (lazy : ∀ frame ∈ rest, frame.Lazy flag guard mutex) :
      LazyPosition flag guard mutex value
        (.run (.within [guard] (lazyInitBody flag mutex)) :: rest)
  | waiting {value : Bool} {rest : List (Frame Mutex Flag)}
      (lazy : ∀ frame ∈ rest, frame.Lazy flag guard mutex) :
      LazyPosition flag guard mutex value
        (.acquire [guard] [] (lazyInitBody flag mutex) :: rest)
  | locked {value : Bool} {rest : List (Frame Mutex Flag)}
      (lazy : ∀ frame ∈ rest, frame.Lazy flag guard mutex) :
      LazyPosition flag guard mutex value
        (.acquire [] [guard] (lazyInitBody flag mutex) :: rest)
  | testing {value : Bool} {rest : List (Frame Mutex Flag)}
      (lazy : ∀ frame ∈ rest, frame.Lazy flag guard mutex) :
      LazyPosition flag guard mutex value
        (.run (lazyInitBody flag mutex) :: .release guard :: rest)
  | decided {rest : List (Frame Mutex Flag)}
      (lazy : ∀ frame ∈ rest, frame.Lazy flag guard mutex) :
      LazyPosition flag guard mutex false
        (.run (.seq (.init [mutex]) (.set flag true)) :: .release guard ::
          rest)
  | initialising {rest : List (Frame Mutex Flag)}
      (lazy : ∀ frame ∈ rest, frame.Lazy flag guard mutex) :
      LazyPosition flag guard mutex false
        (.run (.init [mutex]) :: .run (.set flag true) :: .release guard ::
          rest)
  | setting {rest : List (Frame Mutex Flag)}
      (lazy : ∀ frame ∈ rest, frame.Lazy flag guard mutex) :
      LazyPosition flag guard mutex false
        (.run (.set flag true) :: .release guard :: rest)

namespace LazyPosition

variable {flag : Flag} {guard mutex : Mutex} {value : Bool}
  {shared after : Shared Mutex Flag} {frames rest : List (Frame Mutex Flag)}

theorem of_apart (step : ThreadStep shared frames after rest)
    (lazy : ∀ frame ∈ frames, frame.Lazy flag guard mutex) :
    after.flags flag = shared.flags flag ∧
      LazyPosition flag guard mutex value rest := by
  cases step with
  | skip | fork | leave | tryFails | init | unlock =>
      exact ⟨rfl, .apart (List.forall_mem_cons.mp lazy).2⟩
  | set =>
      obtain ⟨different, others⟩ := List.forall_mem_cons.mp lazy
      refine ⟨?_, .apart others⟩
      exact Function.update_of_ne (Ne.symm different) _ _
  | seq =>
      obtain ⟨⟨first, second⟩, others⟩ := List.forall_mem_cons.mp lazy
      refine ⟨rfl, .apart ?_⟩
      rw [List.forall_mem_cons, List.forall_mem_cons]
      exact ⟨first, second, others⟩
  | alt branch =>
      obtain ⟨⟨first, second⟩, others⟩ := List.forall_mem_cons.mp lazy
      refine ⟨rfl, .apart ?_⟩
      rw [List.forall_mem_cons]
      refine ⟨?_, others⟩
      rcases branch with rfl | rfl
      · exact first
      · exact second
  | test =>
      obtain ⟨tested, others⟩ := List.forall_mem_cons.mp lazy
      refine ⟨rfl, ?_⟩
      rcases tested with initialises | ⟨yes, no⟩
      · obtain ⟨rfl, rfl, rfl⟩ := Program.test.inj initialises
        split
        · apply LazyPosition.apart
          rw [List.forall_mem_cons]
          exact ⟨trivial, others⟩
        · exact .entering others
      · apply LazyPosition.apart
        rw [List.forall_mem_cons]
        refine ⟨?_, others⟩
        split
        · exact yes
        · exact no
  | turn =>
      refine ⟨rfl, .apart ?_⟩
      rw [List.forall_mem_cons]
      exact ⟨(List.forall_mem_cons.mp lazy).1, lazy⟩
  | within =>
      obtain ⟨body, others⟩ := List.forall_mem_cons.mp lazy
      refine ⟨rfl, .apart ?_⟩
      rw [List.forall_mem_cons]
      exact ⟨body, others⟩
  | tryLocks =>
      obtain ⟨body, others⟩ := List.forall_mem_cons.mp lazy
      refine ⟨rfl, .apart ?_⟩
      rw [List.forall_mem_cons, List.forall_mem_cons]
      exact ⟨body, trivial, others⟩
  | enter =>
      obtain ⟨body, others⟩ := List.forall_mem_cons.mp lazy
      refine ⟨rfl, .apart ?_⟩
      rw [List.forall_mem_cons, List.forall_mem_append]
      refine ⟨body, ?_, others⟩
      intro frame released
      obtain ⟨other, _, rfl⟩ := List.mem_map.mp released
      trivial
  | lock =>
      obtain ⟨body, others⟩ := List.forall_mem_cons.mp lazy
      refine ⟨rfl, .apart ?_⟩
      rw [List.forall_mem_cons]
      exact ⟨body, others⟩

/-- One step of a thread; the flag changes only under the guard, and is never
cleared. -/
theorem step (position : LazyPosition flag guard mutex
      (shared.flags flag) frames)
    (step : ThreadStep shared frames after rest) :
    LazyPosition flag guard mutex (after.flags flag) rest ∧
      (after.flags flag = shared.flags flag ∨
        after.flags flag = true ∧ guard ∈ held frames) := by
  generalize flagged : shared.flags flag = value at position
  cases position with
  | apart lazy =>
      obtain ⟨same, position⟩ := of_apart step lazy
      exact ⟨position, Or.inl (same.trans flagged)⟩
  | entering lazy =>
      cases step with
      | within => exact ⟨.waiting lazy, Or.inl flagged⟩
  | waiting lazy =>
      cases step with
      | lock => exact ⟨.locked lazy, Or.inl flagged⟩
  | locked lazy =>
      cases step with
      | enter => exact ⟨.testing lazy, Or.inl flagged⟩
  | testing lazy =>
      cases step with
      | test =>
          refine ⟨?_, Or.inl flagged⟩
          split
          · apply LazyPosition.apart
            rw [List.forall_mem_cons, List.forall_mem_cons]
            exact ⟨trivial, trivial, lazy⟩
          · rename_i unset
            rw [Bool.not_eq_true] at unset
            rw [unset]
            exact .decided lazy
  | decided lazy =>
      cases step with
      | seq =>
          refine ⟨?_, Or.inl flagged⟩
          rw [flagged]
          exact .initialising lazy
  | initialising lazy =>
      cases step with
      | init =>
          refine ⟨?_, Or.inl flagged⟩
          have same : (shared.init [mutex]).flags flag = false := flagged
          rw [same]
          exact .setting lazy
  | setting lazy =>
      cases step with
      | set =>
          refine ⟨.apart ?_, Or.inr ⟨?_, List.mem_cons_self⟩⟩
          · rw [List.forall_mem_cons]
            exact ⟨trivial, lazy⟩
          · exact Function.update_self flag true shared.flags

omit [DecidableEq Mutex] [DecidableEq Flag] in
/-- A thread without the guard does not depend on the flag. -/
theorem outside {other : Bool}
    (position : LazyPosition flag guard mutex value frames)
    (unguarded : guard ∉ held frames) :
    LazyPosition flag guard mutex other frames := by
  cases position with
  | apart lazy => exact .apart lazy
  | entering lazy => exact .entering lazy
  | waiting lazy => exact .waiting lazy
  | locked | testing | decided | initialising | setting =>
      exact (unguarded List.mem_cons_self).elim

omit [DecidableEq Mutex] [DecidableEq Flag] in
theorem unset_of_init {mutexes : List Mutex}
    (position : LazyPosition flag guard mutex value
      (.run (.init mutexes) :: rest))
    (member : mutex ∈ mutexes) : value = false := by
  cases position with
  | apart lazy => exact (lazy _ List.mem_cons_self member).elim
  | initialising => rfl

end LazyPosition

/-! ## Runs -/

variable {program : Call → Program Mutex Flag}
  {state later : State Thread Mutex Flag}

/-- What holds of a mutex that is initialised under a guard. -/
structure LazyInvariant (flag : Flag) (guard mutex : Mutex)
    (state : State Thread Mutex Flag) : Prop where
  clear : Uninitialised guard state
  guarded : Exclusive guard state
  exclusive : Exclusive mutex state
  behind : state.shared.flags flag = false →
    ∀ thread, ∀ frame ∈ state.threads thread, frame.Behind flag mutex
  position : ∀ thread, LazyPosition flag guard mutex
    (state.shared.flags flag) (state.threads thread)

variable {flag : Flag} {guard mutex : Mutex}

omit [DecidableEq Flag] [DecidableEq Thread] in
theorem LazyInvariant.initsUnheld
    (invariant : LazyInvariant flag guard mutex state) :
    InitsUnheld mutex state := by
  intro thread mutexes rest initialises member other
  have position := invariant.position thread
  rw [initialises] at position
  exact count_held_of_behind
    (invariant.behind (position.unset_of_init member) other)

theorem LazyInvariant.behind_next {label : Label Thread Call}
    (invariant : LazyInvariant flag guard mutex state)
    (programs : ∀ call, (program call).UsesLazily flag guard mutex)
    (taken : lockingNext program state label = some later)
    (unset : later.shared.flags flag = false) :
    ∀ thread, ∀ frame ∈ later.threads thread, frame.Behind flag mutex := by
  intro other
  cases label with
  | start thread call =>
      simp only [lockingNext] at taken
      split at taken
      · cases taken
        by_cases here : other = thread
        · subst here
          simp only [State.setThread, Function.update_self,
            List.forall_mem_singleton]
          exact (programs call).behind
        · simp only [State.setThread, Function.update_of_ne here]
          exact invariant.behind unset other
      · cases taken
  | step thread choice =>
      simp only [lockingNext] at taken
      obtain ⟨⟨shared, frames⟩, stepped, rfl⟩ :=
        Option.map_eq_some_iff.mp taken
      have step := threadStep_cases stepped
      have before : state.shared.flags flag = false := by
        rcases ((invariant.position thread).step step).2 with
          same | ⟨set, _⟩
        · exact same.symm.trans unset
        · exact (Bool.false_ne_true (unset.symm.trans set)).elim
      by_cases here : other = thread
      · subst here
        simp only [State.setThread, Function.update_self]
        exact step.behind before (invariant.behind before other)
      · simp only [State.setThread, Function.update_of_ne here]
        exact invariant.behind before other

/-- The flag changes only while no other thread holds the guard. -/
theorem LazyInvariant.position_next {label : Label Thread Call}
    (invariant : LazyInvariant flag guard mutex state)
    (programs : ∀ call, (program call).UsesLazily flag guard mutex)
    (taken : lockingNext program state label = some later)
    (other : Thread) :
    LazyPosition flag guard mutex (later.shared.flags flag)
      (later.threads other) := by
  cases label with
  | start thread call =>
      simp only [lockingNext] at taken
      split at taken
      · cases taken
        by_cases here : other = thread
        · subst here
          simp only [State.setThread, Function.update_self]
          apply LazyPosition.apart
          rw [List.forall_mem_singleton]
          exact (programs call).lazy
        · simp only [State.setThread, Function.update_of_ne here]
          exact invariant.position other
      · cases taken
  | step thread choice =>
      simp only [lockingNext] at taken
      obtain ⟨⟨shared, frames⟩, stepped, rfl⟩ :=
        Option.map_eq_some_iff.mp taken
      obtain ⟨position, changed⟩ :=
        (invariant.position thread).step (threadStep_cases stepped)
      by_cases here : other = thread
      · subst here
        simpa only [State.setThread, Function.update_self] using position
      · simp only [State.setThread, Function.update_of_ne here]
        rcases changed with same | ⟨_, holds⟩
        · rw [same]
          exact invariant.position other
        · apply (invariant.position other).outside
          intro held
          exact here (invariant.guarded.only other thread
            (List.count_pos_iff.mpr held) (List.count_pos_iff.mpr holds))

/-- The step rule. -/
theorem LazyInvariant.next {label : Label Thread Call}
    (invariant : LazyInvariant flag guard mutex state)
    (programs : ∀ call, (program call).UsesLazily flag guard mutex)
    (taken : lockingNext program state label = some later) :
    LazyInvariant flag guard mutex later where
  clear := invariant.clear.next (fun call => (programs call).guarded) taken
  guarded := invariant.guarded.next invariant.clear.initsUnheld taken
  exclusive := invariant.exclusive.next invariant.initsUnheld taken
  behind := invariant.behind_next programs taken
  position := invariant.position_next programs taken

omit [DecidableEq Flag] [DecidableEq Thread] in
theorem State.Fresh.lazyInvariant (fresh : state.Fresh) :
    LazyInvariant flag guard mutex state := by
  refine ⟨fresh.uninitialised guard, fresh.exclusive guard,
    fresh.exclusive mutex, ?_, ?_⟩
  · intro _ thread frame member
    rw [fresh.2 thread] at member
    cases member
  · intro thread
    rw [fresh.2 thread]
    exact .apart fun frame member => (List.not_mem_nil member).elim

/-- The run rule: a mutex that is initialised once is exclusive. -/
theorem lazyInvariant_of_reachable
    (programs : ∀ call, (program call).UsesLazily flag guard mutex)
    (reachable : (system program State.Fresh).Reachable state) :
    LazyInvariant flag guard mutex state :=
  reachable.invariant (LazyInvariant flag guard mutex)
    (fun _ => State.Fresh.lazyInvariant)
    fun _ _ _ invariant _ taken => invariant.next programs taken

end Locking
