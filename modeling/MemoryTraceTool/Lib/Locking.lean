import Mathlib.Data.List.Count
import Mathlib.Logic.Function.Basic
import MemoryTraceTool.Lib.Transition

/-!
# Threads that run locking programs

A program is what the code of a thread does to a set of mutexes and to a few
shared flags; everything else it does is left to the environment.  A thread is
the stack of what it still has to run, so the mutexes it holds can be read off
its position in the program.
-/

namespace Locking

open Transition

/-- `alt` and `loop` stand for branches on data outside the model. -/
inductive Program (Mutex : Type u) (Flag : Type v) where
  | skip
  | fork
  | seq (first second : Program Mutex Flag)
  | alt (first second : Program Mutex Flag)
  | loop (body : Program Mutex Flag)
  | within (mutexes : List Mutex) (body : Program Mutex Flag)
  | tryWithin (mutex : Mutex) (body : Program Mutex Flag)
  | init (mutexes : List Mutex)
  | test (flag : Flag) (yes no : Program Mutex Flag)
  | set (flag : Flag) (value : Bool)
  deriving DecidableEq

/-- What a thread still has to run: a program, the mutexes of a section of
which some are taken already, or an unlock. -/
inductive Frame (Mutex : Type u) (Flag : Type v) where
  | run (program : Program Mutex Flag)
  | acquire (pending taken : List Mutex) (body : Program Mutex Flag)
  | release (mutex : Mutex)
  deriving DecidableEq

structure Shared (Mutex : Type u) (Flag : Type v) where
  locked : Mutex → Bool
  flags : Flag → Bool

/-- What the threads share, and the stack of each. -/
structure State (Thread : Type w) (Mutex : Type u) (Flag : Type v) where
  shared : Shared Mutex Flag
  threads : Thread → List (Frame Mutex Flag)

/-- `choice` decides the next `alt` or `loop`. -/
inductive Label (Thread : Type w) (Call : Type x) where
  | start (thread : Thread) (call : Call)
  | step (thread : Thread) (choice : Bool)

variable {Mutex : Type u} {Flag : Type v} {Thread : Type w} {Call : Type x}
  [DecidableEq Mutex] [DecidableEq Flag] [DecidableEq Thread]

def Shared.setLocked (shared : Shared Mutex Flag) (mutex : Mutex)
    (value : Bool) : Shared Mutex Flag :=
  { shared with locked := Function.update shared.locked mutex value }

def Shared.setFlag (shared : Shared Mutex Flag) (flag : Flag)
    (value : Bool) : Shared Mutex Flag :=
  { shared with flags := Function.update shared.flags flag value }

/-- `pthread_mutex_init` leaves a mutex unlocked, whoever held it. -/
def Shared.init (shared : Shared Mutex Flag) (mutexes : List Mutex) :
    Shared Mutex Flag :=
  { shared with locked := fun mutex =>
      if mutex ∈ mutexes then false else shared.locked mutex }

/-- The next step of a thread; `none` when it is idle or has to wait. -/
def threadStep (shared : Shared Mutex Flag) (choice : Bool) :
    List (Frame Mutex Flag) →
      Option (Shared Mutex Flag × List (Frame Mutex Flag))
  | [] => none
  | .run program :: rest =>
      match program with
      | .skip | .fork => some (shared, rest)
      | .seq first second => some (shared, .run first :: .run second :: rest)
      | .alt first second =>
          some (shared, .run (if choice then first else second) :: rest)
      | .loop body =>
          if choice then some (shared, .run body :: .run (.loop body) :: rest)
          else some (shared, rest)
      | .within mutexes body =>
          some (shared, .acquire mutexes [] body :: rest)
      | .tryWithin mutex body =>
          if shared.locked mutex then some (shared, rest)
          else some (shared.setLocked mutex true,
            .run body :: .release mutex :: rest)
      | .init mutexes => some (shared.init mutexes, rest)
      | .test flag yes no =>
          some (shared, .run (if shared.flags flag then yes else no) :: rest)
      | .set flag value => some (shared.setFlag flag value, rest)
  | .acquire pending taken body :: rest =>
      match pending with
      | [] => some (shared, .run body :: (taken.map .release ++ rest))
      | mutex :: pending =>
          if shared.locked mutex then none
          else some (shared.setLocked mutex true,
            .acquire pending (taken ++ [mutex]) body :: rest)
  | .release mutex :: rest => some (shared.setLocked mutex false, rest)

def State.setThread (state : State Thread Mutex Flag) (thread : Thread)
    (frames : List (Frame Mutex Flag)) : State Thread Mutex Flag :=
  { state with threads := Function.update state.threads thread frames }

/-- The programs of all threads interleave step by step. -/
def lockingNext (program : Call → Program Mutex Flag)
    (state : State Thread Mutex Flag) :
    Label Thread Call → Option (State Thread Mutex Flag)
  | .start thread call =>
      if state.threads thread = [] then
        some (state.setThread thread [.run (program call)])
      else none
  | .step thread choice =>
      (threadStep state.shared choice (state.threads thread)).map
        fun (shared, frames) =>
          { state.setThread thread frames with shared := shared }

/-- Threads that start calls whenever they are idle. -/
def system (program : Call → Program Mutex Flag)
    (init : State Thread Mutex Flag → Prop) :
    System (State Thread Mutex Flag) (Label Thread Call) where
  init := init
  next := lockingNext program

/-- No thread runs, and no mutex is locked. -/
def State.Fresh (state : State Thread Mutex Flag) : Prop :=
  (∀ mutex, state.shared.locked mutex = false) ∧
    ∀ thread, state.threads thread = []

/-- The child of a fork: the memory of the parent without its threads. -/
def State.child (state : State Thread Mutex Flag) :
    State Thread Mutex Flag :=
  { state with threads := fun _ => [] }

/-- The kinds of steps of a thread, with the stack before and after each. -/
inductive ThreadStep (shared : Shared Mutex Flag) :
    List (Frame Mutex Flag) → Shared Mutex Flag → List (Frame Mutex Flag) →
      Prop where
  | skip {rest} : ThreadStep shared (.run .skip :: rest) shared rest
  | fork {rest} : ThreadStep shared (.run .fork :: rest) shared rest
  | seq {first second rest} :
      ThreadStep shared (.run (.seq first second) :: rest) shared
        (.run first :: .run second :: rest)
  | alt {first second one rest} (branch : one = first ∨ one = second) :
      ThreadStep shared (.run (.alt first second) :: rest) shared
        (.run one :: rest)
  | test {flag yes no rest} :
      ThreadStep shared (.run (.test flag yes no) :: rest) shared
        (.run (if shared.flags flag then yes else no) :: rest)
  | turn {body rest} :
      ThreadStep shared (.run (.loop body) :: rest) shared
        (.run body :: .run (.loop body) :: rest)
  | leave {body rest} :
      ThreadStep shared (.run (.loop body) :: rest) shared rest
  | within {mutexes body rest} :
      ThreadStep shared (.run (.within mutexes body) :: rest) shared
        (.acquire mutexes [] body :: rest)
  | tryFails {mutex body rest} :
      ThreadStep shared (.run (.tryWithin mutex body) :: rest) shared rest
  | tryLocks {mutex body rest} (free : shared.locked mutex = false) :
      ThreadStep shared (.run (.tryWithin mutex body) :: rest)
        (shared.setLocked mutex true) (.run body :: .release mutex :: rest)
  | init {mutexes rest} :
      ThreadStep shared (.run (.init mutexes) :: rest) (shared.init mutexes)
        rest
  | set {flag value rest} :
      ThreadStep shared (.run (.set flag value) :: rest)
        (shared.setFlag flag value) rest
  | enter {taken body rest} :
      ThreadStep shared (.acquire [] taken body :: rest) shared
        (.run body :: (taken.map .release ++ rest))
  | lock {mutex pending taken body rest}
      (free : shared.locked mutex = false) :
      ThreadStep shared (.acquire (mutex :: pending) taken body :: rest)
        (shared.setLocked mutex true)
        (.acquire pending (taken ++ [mutex]) body :: rest)
  | unlock {mutex rest} :
      ThreadStep shared (.release mutex :: rest)
        (shared.setLocked mutex false) rest

theorem threadStep_cases {shared later : Shared Mutex Flag} {choice : Bool}
    {frames after : List (Frame Mutex Flag)}
    (taken : threadStep shared choice frames = some (later, after)) :
    ThreadStep shared frames later after := by
  cases frames with
  | nil => cases taken
  | cons frame rest =>
      cases frame with
      | run program =>
          cases program with
          | skip =>
              cases taken
              exact .skip
          | fork =>
              cases taken
              exact .fork
          | seq first second =>
              cases taken
              exact .seq
          | alt first second =>
              cases taken
              apply ThreadStep.alt
              cases choice with
              | true => exact .inl rfl
              | false => exact .inr rfl
          | test flag yes no =>
              cases taken
              exact .test
          | loop body =>
              cases choice with
              | true =>
                  cases taken
                  exact .turn
              | false =>
                  cases taken
                  exact .leave
          | within mutexes body =>
              cases taken
              exact .within
          | tryWithin mutex body =>
              simp only [threadStep] at taken
              split at taken
              · cases taken
                exact .tryFails
              · rename_i free
                cases taken
                exact .tryLocks (Bool.not_eq_true _ ▸ free)
          | init mutexes =>
              cases taken
              exact .init
          | set flag value =>
              cases taken
              exact .set
      | acquire pending locked body =>
          cases pending with
          | nil =>
              cases taken
              exact .enter
          | cons mutex pending =>
              simp only [threadStep] at taken
              split at taken
              · cases taken
              · rename_i free
                cases taken
                exact .lock (Bool.not_eq_true _ ▸ free)
      | release mutex =>
          cases taken
          exact .unlock

theorem threads_next {program : Call → Program Mutex Flag}
    {good : List (Frame Mutex Flag) → Prop}
    {state later : State Thread Mutex Flag} {label : Label Thread Call}
    (starts : ∀ call, good [.run (program call)])
    (steps : ∀ {shared after frames rest},
      ThreadStep shared frames after rest → good frames → good rest)
    (all : ∀ thread, good (state.threads thread))
    (taken : lockingNext program state label = some later) :
    ∀ thread, good (later.threads thread) := by
  cases label with
  | start thread call =>
      simp only [lockingNext] at taken
      split at taken
      · cases taken
        intro other
        by_cases here : other = thread
        · subst here
          simp only [State.setThread, Function.update_self]
          exact starts call
        · simp only [State.setThread, Function.update_of_ne here]
          exact all other
      · cases taken
  | step thread choice =>
      simp only [lockingNext] at taken
      obtain ⟨⟨shared, frames⟩, stepped, rfl⟩ :=
        Option.map_eq_some_iff.mp taken
      intro other
      by_cases here : other = thread
      · subst here
        simp only [State.setThread, Function.update_self]
        exact steps (threadStep_cases stepped) (all other)
      · simp only [State.setThread, Function.update_of_ne here]
        exact all other

/-! ## Held mutexes -/

def Frame.held : Frame Mutex Flag → List Mutex
  | .run _ => []
  | .acquire _ taken _ => taken
  | .release mutex => [mutex]

/-- The mutexes whose unlock is still ahead of a thread. -/
def held (frames : List (Frame Mutex Flag)) : List Mutex :=
  frames.flatMap Frame.held

/-- The mutexes that a program initialises. -/
def Program.inits : Program Mutex Flag → List Mutex
  | .skip | .fork | .set _ _ => []
  | .seq first second | .alt first second | .test _ first second =>
      first.inits ++ second.inits
  | .loop body | .within _ body | .tryWithin _ body => body.inits
  | .init mutexes => mutexes

def Frame.inits : Frame Mutex Flag → List Mutex
  | .run program | .acquire _ _ program => program.inits
  | .release _ => []

/-- The program comes to a fork. -/
def Program.forks : Program Mutex Flag → Prop
  | .fork => True
  | .skip | .set _ _ | .init _ => False
  | .seq first second | .alt first second | .test _ first second =>
      first.forks ∨ second.forks
  | .loop body | .within _ body | .tryWithin _ body => body.forks

def Frame.forks : Frame Mutex Flag → Prop
  | .run program | .acquire _ _ program => program.forks
  | .release _ => False

omit [DecidableEq Mutex] [DecidableEq Flag] in
theorem held_releases (mutexes : List Mutex)
    (rest : List (Frame Mutex Flag)) :
    held (mutexes.map .release ++ rest) = mutexes ++ held rest := by
  induction mutexes with
  | nil => rfl
  | cons mutex mutexes induction =>
      rw [List.map_cons, List.cons_append, List.cons_append, ← induction]
      rfl

/-- The effect of a step on one mutex and on the stack of the thread. -/
inductive StepEffect (mutex : Mutex) (shared later : Shared Mutex Flag)
    (frames after : List (Frame Mutex Flag)) : Prop where
  | same (locked : later.locked mutex = shared.locked mutex)
      (count : (held after).count mutex = (held frames).count mutex)
  | lock (free : shared.locked mutex = false)
      (locked : later.locked mutex = true)
      (count : (held after).count mutex = (held frames).count mutex + 1)
  | unlock (locked : later.locked mutex = false)
      (count : (held after).count mutex + 1 = (held frames).count mutex)
  | init {mutexes : List Mutex} {rest : List (Frame Mutex Flag)}
      (locked : later.locked mutex = false)
      (count : (held after).count mutex = (held frames).count mutex)
      (initialises : frames = .run (.init mutexes) :: rest)
      (member : mutex ∈ mutexes)

omit [DecidableEq Flag] in
theorem StepEffect.of_lock {mutex other : Mutex} {shared : Shared Mutex Flag}
    {frames after : List (Frame Mutex Flag)}
    (free : shared.locked other = false)
    (count : (held after).count mutex =
      (held frames).count mutex + [other].count mutex) :
    StepEffect mutex shared (shared.setLocked other true) frames after := by
  by_cases here : mutex = other
  · subst here
    apply StepEffect.lock free
    · simp [Shared.setLocked]
    · simpa using count
  · apply StepEffect.same
    · simp [Shared.setLocked, here]
    · rw [count, List.count_singleton, if_neg (by simpa using Ne.symm here)]
      rfl

theorem ThreadStep.effect {shared later : Shared Mutex Flag}
    {frames after : List (Frame Mutex Flag)} (mutex : Mutex)
    (step : ThreadStep shared frames later after) :
    StepEffect mutex shared later frames after := by
  cases step with
  | skip | fork | seq | alt | test | turn | leave | within | tryFails
  | set => exact .same rfl rfl
  | tryLocks free =>
      apply StepEffect.of_lock free
      simp only [held, List.flatMap_cons, Frame.held, List.count_append,
        List.count_nil]
      omega
  | @init mutexes =>
      by_cases member : mutex ∈ mutexes
      · refine .init ?_ rfl rfl member
        simp [Shared.init, member]
      · refine .same ?_ rfl
        simp [Shared.init, member]
  | @enter taken body rest =>
      apply StepEffect.same rfl
      have releases := held_releases taken rest
      simp only [held, List.flatMap_cons, Frame.held] at releases ⊢
      rw [releases]
      rfl
  | lock free =>
      apply StepEffect.of_lock free
      simp only [held, List.flatMap_cons, Frame.held, List.count_append]
      omega
  | @unlock other =>
      by_cases here : mutex = other
      · subst here
        apply StepEffect.unlock
        · simp [Shared.setLocked]
        · simp [held, Frame.held, Nat.add_comm]
      · apply StepEffect.same
        · simp [Shared.setLocked, here]
        · simp only [held, List.flatMap_cons, Frame.held, List.count_append,
            List.count_singleton]
          rw [if_neg (by simpa using Ne.symm here), Nat.zero_add]

/-! ## Runs -/

variable {program : Call → Program Mutex Flag}
  {init : State Thread Mutex Flag → Prop}
  {state later : State Thread Mutex Flag}

/-- How often a thread still has to unlock a mutex. -/
def State.holds (state : State Thread Mutex Flag) (thread : Thread)
    (mutex : Mutex) : Nat :=
  (held (state.threads thread)).count mutex

omit [DecidableEq Flag] in
theorem State.holds_setThread (state : State Thread Mutex Flag)
    (thread : Thread) (frames : List (Frame Mutex Flag)) (other : Thread)
    (mutex : Mutex) :
    (state.setThread thread frames).holds other mutex =
      if other = thread then (held frames).count mutex
      else state.holds other mutex := by
  unfold holds setThread
  by_cases here : other = thread
  · subst here
    simp
  · simp [here]

/-- The effect of a step on one mutex: the other threads keep what they
hold. -/
inductive Effect (mutex : Mutex) (state later : State Thread Mutex Flag)
    (thread : Thread) : Prop where
  | same (locked : later.shared.locked mutex = state.shared.locked mutex)
      (count : later.holds thread mutex = state.holds thread mutex)
  | lock (free : state.shared.locked mutex = false)
      (locked : later.shared.locked mutex = true)
      (count : later.holds thread mutex = state.holds thread mutex + 1)
  | unlock (locked : later.shared.locked mutex = false)
      (count : later.holds thread mutex + 1 = state.holds thread mutex)
  | init {mutexes : List Mutex} {rest : List (Frame Mutex Flag)}
      (locked : later.shared.locked mutex = false)
      (count : later.holds thread mutex = state.holds thread mutex)
      (initialises : state.threads thread = .run (.init mutexes) :: rest)
      (member : mutex ∈ mutexes)

theorem lockingNext_effect {label : Label Thread Call} (mutex : Mutex)
    (taken : lockingNext program state label = some later) :
    ∃ thread, Effect mutex state later thread ∧
      ∀ other, other ≠ thread →
        later.holds other mutex = state.holds other mutex := by
  cases label with
  | start thread call =>
      simp only [lockingNext] at taken
      split at taken
      · rename_i idle
        rw [Option.some.injEq] at taken
        subst taken
        refine ⟨thread, .same rfl ?_, ?_⟩
        · rw [State.holds_setThread, if_pos rfl, State.holds, idle]
          rfl
        · intro other different
          rw [State.holds_setThread, if_neg different]
      · cases taken
  | step thread choice =>
      simp only [lockingNext] at taken
      obtain ⟨⟨shared, frames⟩, stepped, rfl⟩ :=
        Option.map_eq_some_iff.mp taken
      have own : ({ state.setThread thread frames with
          shared := shared } : State Thread Mutex Flag).holds thread mutex =
            (held frames).count mutex := by
        simp [State.holds, State.setThread]
      refine ⟨thread, ?_, ?_⟩
      · cases (threadStep_cases stepped).effect mutex with
        | same locked count => exact .same locked (own.trans count)
        | lock free locked count =>
            exact .lock free locked (own.trans count)
        | unlock locked count =>
            exact .unlock locked ((congrArg Nat.succ own).trans count)
        | init locked count initialises member =>
            exact .init locked (own.trans count) initialises member
      · intro other different
        simp [State.holds, State.setThread, different]

/-- Every locked mutex has an owner. -/
def Owned (state : State Thread Mutex Flag) : Prop :=
  ∀ mutex, state.shared.locked mutex = true →
    ∃ thread, 0 < state.holds thread mutex

theorem Owned.next {label : Label Thread Call} (owned : Owned state)
    (taken : lockingNext program state label = some later) :
    Owned later := by
  intro mutex locked
  obtain ⟨thread, effect, frame⟩ := lockingNext_effect mutex taken
  cases effect with
  | same kept count =>
      rw [kept] at locked
      obtain ⟨owner, holds⟩ := owned mutex locked
      refine ⟨owner, ?_⟩
      by_cases here : owner = thread
      · subst here
        rwa [count]
      · rwa [frame owner here]
  | lock free nowLocked count =>
      refine ⟨thread, ?_⟩
      rw [count]
      exact Nat.succ_pos _
  | unlock unlocked count =>
      rw [unlocked] at locked
      cases locked
  | init unlocked =>
      rw [unlocked] at locked
      cases locked

omit [DecidableEq Flag] [DecidableEq Thread] in
theorem State.Fresh.owned (fresh : state.Fresh) : Owned state := by
  intro mutex locked
  rw [fresh.1 mutex] at locked
  cases locked

theorem owned_of_reachable (initial : ∀ state, init state → Owned state)
    (reachable : (system program init).Reachable state) : Owned state :=
  reachable.invariant Owned initial
    fun _ _ _ owned _ taken => owned.next taken

/-- No thread runs code that initialises the mutex. -/
def Uninitialised (mutex : Mutex) (state : State Thread Mutex Flag) : Prop :=
  ∀ thread, ∀ frame ∈ state.threads thread, mutex ∉ frame.inits

/-- A property of frames that the parts of a program inherit. -/
structure Hereditary (property : Frame Mutex Flag → Prop) : Prop where
  release : ∀ mutex, property (.release mutex)
  seq : ∀ first second, property (.run (.seq first second)) →
    property (.run first) ∧ property (.run second)
  alt : ∀ first second, property (.run (.alt first second)) →
    property (.run first) ∧ property (.run second)
  loop : ∀ body, property (.run (.loop body)) → property (.run body)
  test : ∀ flag yes no, property (.run (.test flag yes no)) →
    property (.run yes) ∧ property (.run no)
  within : ∀ mutexes body, property (.run (.within mutexes body)) →
    property (.run body)
  tryWithin : ∀ mutex body, property (.run (.tryWithin mutex body)) →
    property (.run body)
  acquire : ∀ pending taken body,
    property (.acquire pending taken body) ↔ property (.run body)

/-- A thread keeps a hereditary property of all that it still has to run. -/
theorem Hereditary.step {property : Frame Mutex Flag → Prop}
    (hereditary : Hereditary property) {shared after : Shared Mutex Flag}
    {frames rest : List (Frame Mutex Flag)}
    (step : ThreadStep shared frames after rest)
    (clear : ∀ frame ∈ frames, property frame) :
    ∀ frame ∈ rest, property frame := by
  cases step with
  | skip | fork | leave | tryFails | init | set | unlock =>
      exact (List.forall_mem_cons.mp clear).2
  | seq =>
      rw [List.forall_mem_cons] at clear
      rw [List.forall_mem_cons, List.forall_mem_cons]
      obtain ⟨first, second⟩ := hereditary.seq _ _ clear.1
      exact ⟨first, second, clear.2⟩
  | alt branch =>
      rw [List.forall_mem_cons] at clear ⊢
      refine ⟨?_, clear.2⟩
      rcases branch with rfl | rfl
      · exact (hereditary.alt _ _ clear.1).1
      · exact (hereditary.alt _ _ clear.1).2
  | test =>
      rw [List.forall_mem_cons] at clear ⊢
      refine ⟨?_, clear.2⟩
      split
      · exact (hereditary.test _ _ _ clear.1).1
      · exact (hereditary.test _ _ _ clear.1).2
  | turn =>
      rw [List.forall_mem_cons]
      exact ⟨hereditary.loop _ (clear _ List.mem_cons_self), clear⟩
  | within =>
      rw [List.forall_mem_cons] at clear ⊢
      rw [hereditary.acquire]
      exact ⟨hereditary.within _ _ clear.1, clear.2⟩
  | @tryLocks mutex =>
      rw [List.forall_mem_cons] at clear
      rw [List.forall_mem_cons, List.forall_mem_cons]
      exact ⟨hereditary.tryWithin _ _ clear.1, hereditary.release mutex,
        clear.2⟩
  | enter =>
      rw [List.forall_mem_cons, hereditary.acquire] at clear
      rw [List.forall_mem_cons, List.forall_mem_append]
      refine ⟨clear.1, ?_, clear.2⟩
      intro frame member
      obtain ⟨mutex, _, rfl⟩ := List.mem_map.mp member
      exact hereditary.release mutex
  | lock =>
      rw [List.forall_mem_cons, hereditary.acquire] at clear ⊢
      exact clear

omit [DecidableEq Mutex] [DecidableEq Flag] in
theorem hereditary_inits (mutex : Mutex) :
    Hereditary fun frame : Frame Mutex Flag => mutex ∉ frame.inits := by
  constructor
  case release => exact fun _ => List.not_mem_nil
  case acquire => exact fun _ _ _ => Iff.rfl
  case loop => exact fun _ => id
  case within => exact fun _ _ => id
  case tryWithin => exact fun _ _ => id
  case seq =>
    intro first second clear
    simpa [Frame.inits, Program.inits] using clear
  case alt =>
    intro first second clear
    simpa [Frame.inits, Program.inits] using clear
  case test =>
    intro flag yes no clear
    simpa [Frame.inits, Program.inits] using clear

omit [DecidableEq Mutex] [DecidableEq Flag] in
theorem hereditary_forks :
    Hereditary fun frame : Frame Mutex Flag => ¬ frame.forks := by
  constructor
  case release => exact fun _ => id
  case acquire => exact fun _ _ _ => Iff.rfl
  case loop => exact fun _ => id
  case within => exact fun _ _ => id
  case tryWithin => exact fun _ _ => id
  case seq => exact fun _ _ => not_or.mp
  case alt => exact fun _ _ => not_or.mp
  case test => exact fun _ _ _ => not_or.mp

theorem Uninitialised.next {label : Label Thread Call} {mutex : Mutex}
    (clear : Uninitialised mutex state)
    (programs : ∀ call, mutex ∉ (program call).inits)
    (taken : lockingNext program state label = some later) :
    Uninitialised mutex later := by
  refine threads_next ?_ (hereditary_inits mutex).step clear taken
  intro call
  rw [List.forall_mem_singleton]
  exact programs call

/-- A mutex is locked by the one thread that has to unlock it. -/
structure Exclusive (mutex : Mutex) (state : State Thread Mutex Flag) :
    Prop where
  free : state.shared.locked mutex = false →
    ∀ thread, state.holds thread mutex = 0
  once : ∀ thread, state.holds thread mutex ≤ 1
  only : ∀ first second, 0 < state.holds first mutex →
    0 < state.holds second mutex → first = second

/-- When a thread initialises the mutex, nobody is in a section of it. -/
def InitsUnheld (mutex : Mutex) (state : State Thread Mutex Flag) : Prop :=
  ∀ thread mutexes rest,
    state.threads thread = .run (.init mutexes) :: rest → mutex ∈ mutexes →
      ∀ other, state.holds other mutex = 0

omit [DecidableEq Flag] [DecidableEq Thread] in
theorem Uninitialised.initsUnheld {mutex : Mutex}
    (clear : Uninitialised mutex state) : InitsUnheld mutex state := by
  intro thread mutexes rest position member
  have frames := clear thread
  rw [position] at frames
  exact (frames _ List.mem_cons_self member).elim

theorem Exclusive.next {label : Label Thread Call} {mutex : Mutex}
    (exclusive : Exclusive mutex state) (unheld : InitsUnheld mutex state)
    (taken : lockingNext program state label = some later) :
    Exclusive mutex later := by
  obtain ⟨thread, effect, frame⟩ := lockingNext_effect mutex taken
  cases effect with
  | same kept count =>
      have all : ∀ other, later.holds other mutex =
          state.holds other mutex := by
        intro other
        by_cases here : other = thread
        · rw [here, count]
        · exact frame other here
      refine ⟨?_, ?_, ?_⟩
      · intro unlocked other
        rw [kept] at unlocked
        rw [all]
        exact exclusive.free unlocked other
      · intro other
        rw [all]
        exact exclusive.once other
      · intro first second
        rw [all, all]
        exact exclusive.only first second
  | lock free locked count =>
      have none := exclusive.free free
      have others : ∀ other, 0 < later.holds other mutex →
          other = thread := by
        intro other positive
        by_contra different
        rw [frame other different, none other] at positive
        cases positive
      refine ⟨?_, ?_, ?_⟩
      · intro unlocked
        rw [locked] at unlocked
        cases unlocked
      · intro other
        by_cases here : other = thread
        · have single : later.holds other mutex = 1 := by
            rw [here, count, none thread]
          exact Nat.le_of_eq single
        · rw [frame other here]
          exact exclusive.once other
      · intro first second firstHolds secondHolds
        rw [others first firstHolds, others second secondHolds]
  | unlock unlocked count =>
      have one := exclusive.once thread
      have all : ∀ other, later.holds other mutex = 0 := by
        intro other
        by_cases here : other = thread
        · rw [here]
          omega
        · rw [frame other here]
          by_contra positive
          exact here (exclusive.only other thread
            (Nat.pos_iff_ne_zero.mpr positive) (by omega))
      refine ⟨fun _ => all, ?_, ?_⟩
      · intro other
        rw [all other]
        exact Nat.zero_le 1
      · intro first second holds
        rw [all first] at holds
        cases holds
  | init unlocked count initialises member =>
      have nobody := unheld thread _ _ initialises member
      have all : ∀ other, later.holds other mutex = 0 := by
        intro other
        by_cases here : other = thread
        · rw [here, count, nobody thread]
        · rw [frame other here, nobody other]
      refine ⟨fun _ => all, ?_, ?_⟩
      · intro other
        rw [all other]
        exact Nat.zero_le 1
      · intro first second holds
        rw [all first] at holds
        cases holds

omit [DecidableEq Flag] [DecidableEq Thread] in
theorem State.Fresh.exclusive (fresh : state.Fresh) (mutex : Mutex) :
    Exclusive mutex state := by
  refine ⟨?_, ?_, ?_⟩
  · intro _ thread
    rw [State.holds, fresh.2 thread]
    rfl
  · intro thread
    rw [State.holds, fresh.2 thread]
    exact Nat.zero_le 1
  · intro thread _ holds
    rw [State.holds, fresh.2 thread] at holds
    cases holds

omit [DecidableEq Mutex] [DecidableEq Flag] [DecidableEq Thread] in
theorem State.Fresh.uninitialised (fresh : state.Fresh) (mutex : Mutex) :
    Uninitialised mutex state := by
  intro thread frame member
  rw [fresh.2 thread] at member
  cases member

theorem exclusive_of_reachable {mutex : Mutex}
    (programs : ∀ call, mutex ∉ (program call).inits)
    (reachable : (system program State.Fresh).Reachable state) :
    Uninitialised mutex state ∧ Exclusive mutex state := by
  apply reachable.invariant fun state =>
    Uninitialised mutex state ∧ Exclusive mutex state
  · intro state fresh
    exact ⟨fresh.uninitialised mutex, fresh.exclusive mutex⟩
  · intro state label target ⟨clear, exclusive⟩ _ taken
    exact ⟨clear.next programs taken,
      exclusive.next clear.initsUnheld taken⟩

/-- Where a thread is that forks only while it holds certain mutexes. -/
inductive ForkPosition (mutexes : List Mutex) :
    List (Frame Mutex Flag) → Prop where
  | elsewhere {frames : List (Frame Mutex Flag)}
      (clear : ∀ frame ∈ frames, ¬ frame.forks) : ForkPosition mutexes frames
  | entering : ForkPosition mutexes [.run (.within mutexes .fork)]
  | acquiring {pending taken : List Mutex}
      (split : taken ++ pending = mutexes) :
      ForkPosition mutexes [.acquire pending taken .fork]
  | forking : ForkPosition mutexes (.run .fork :: (mutexes.map .release ++ []))

theorem ForkPosition.step {mutexes : List Mutex}
    {shared after : Shared Mutex Flag} {frames rest : List (Frame Mutex Flag)}
    (step : ThreadStep shared frames after rest)
    (position : ForkPosition mutexes frames) : ForkPosition mutexes rest := by
  cases position with
  | elsewhere clear => exact .elsewhere (hereditary_forks.step step clear)
  | entering =>
      cases step with
      | within => exact .acquiring (List.nil_append mutexes)
  | acquiring split =>
      cases step with
      | enter =>
          rw [List.append_nil] at split
          exact split ▸ .forking
      | lock =>
          apply ForkPosition.acquiring
          rw [List.append_assoc, List.singleton_append]
          exact split
  | forking =>
      cases step with
      | fork =>
          apply ForkPosition.elsewhere
          intro frame member
          rw [List.append_nil] at member
          obtain ⟨mutex, _, rfl⟩ := List.mem_map.mp member
          exact id

omit [DecidableEq Mutex] [DecidableEq Flag] in
/-- At the fork the thread holds exactly those mutexes. -/
theorem ForkPosition.held_eq {mutexes : List Mutex}
    {rest : List (Frame Mutex Flag)}
    (position : ForkPosition mutexes (.run .fork :: rest)) :
    held (.run .fork :: rest) = mutexes := by
  cases position with
  | elsewhere clear => exact (clear _ List.mem_cons_self trivial).elim
  | forking =>
      have releases := held_releases mutexes ([] : List (Frame Mutex Flag))
      simpa [held, Frame.held] using releases

theorem forkPosition_next {mutexes : List Mutex}
    {label : Label Thread Call}
    (programs : ∀ call, program call = .within mutexes .fork ∨
      ¬ (program call).forks)
    (positions : ∀ thread, ForkPosition mutexes (state.threads thread))
    (taken : lockingNext program state label = some later) :
    ∀ thread, ForkPosition mutexes (later.threads thread) := by
  refine threads_next ?_ ForkPosition.step positions taken
  intro call
  rcases programs call with forks | clear
  · rw [forks]
    exact .entering
  · apply ForkPosition.elsewhere
    rw [List.forall_mem_singleton]
    exact clear

/-- A locked mutex without an owner stays locked, however the threads go
on. -/
structure Orphaned (mutex : Mutex) (state : State Thread Mutex Flag) :
    Prop where
  clear : Uninitialised mutex state
  locked : state.shared.locked mutex = true
  unheld : ∀ thread, state.holds thread mutex = 0

theorem Orphaned.next {label : Label Thread Call} {mutex : Mutex}
    (orphaned : Orphaned mutex state)
    (programs : ∀ call, mutex ∉ (program call).inits)
    (taken : lockingNext program state label = some later) :
    Orphaned mutex later := by
  have clear := orphaned.clear.next programs taken
  obtain ⟨thread, effect, frame⟩ := lockingNext_effect mutex taken
  have unheld := orphaned.unheld thread
  cases effect with
  | same kept count =>
      refine ⟨clear, kept.trans orphaned.locked, ?_⟩
      intro other
      by_cases here : other = thread
      · rw [here, count, unheld]
      · rw [frame other here]
        exact orphaned.unheld other
  | lock free locked count =>
      rw [orphaned.locked] at free
      cases free
  | unlock unlocked count =>
      rw [unheld] at count
      cases count
  | init unlocked count initialises member =>
      have held := orphaned.clear thread
      rw [initialises] at held
      exact (held _ List.mem_cons_self member).elim

end Locking
