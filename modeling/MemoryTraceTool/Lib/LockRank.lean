import Mathlib.Logic.Relation
import Mathlib.Order.Basic
import MemoryTraceTool.Lib.Locking

/-!
# Ranked mutexes

If every program waits only for mutexes that rank above all those it holds,
then threads never wait for each other in a cycle.  A `tryWithin` does not
wait, so the rank of its mutex is free.
-/

namespace Locking

open Transition

variable {Mutex : Type u} {Flag : Type v} {Thread : Type w} {Call : Type x}
  {Level : Type y} [Preorder Level] {rank : Mutex → Level}

/-- Each mutex ranks above the held ones and above those before it. -/
def ClimbsList (rank : Mutex → Level) : List Mutex → List Mutex → Prop
  | _, [] => True
  | held, mutex :: rest =>
      (∀ other ∈ held, rank other < rank mutex) ∧
        ClimbsList rank (mutex :: held) rest

/-- Started with these mutexes held, the program waits for higher ones
only. -/
def Program.Climbs (rank : Mutex → Level) (held : List Mutex) :
    Program Mutex Flag → Prop
  | .skip | .fork | .init _ | .set _ _ => True
  | .seq first second | .alt first second | .test _ first second =>
      first.Climbs rank held ∧ second.Climbs rank held
  | .loop body => body.Climbs rank held
  | .within mutexes body =>
      ClimbsList rank held mutexes ∧ body.Climbs rank (mutexes ++ held)
  | .tryWithin mutex body => body.Climbs rank (mutex :: held)

def Frame.Climbs (rank : Mutex → Level) (held : List Mutex) :
    Frame Mutex Flag → Prop
  | .run program => program.Climbs rank held
  | .acquire pending taken body =>
      (Program.within pending body).Climbs rank (taken ++ held)
  | .release _ => True

/-- Each frame climbs from what the frames below it hold. -/
def StackClimbs (rank : Mutex → Level) : List (Frame Mutex Flag) → Prop
  | [] => True
  | frame :: rest =>
      frame.Climbs rank (held rest) ∧ StackClimbs rank rest

/-! ## Fewer mutexes held -/

theorem ClimbsList.mono {more fewer : List Mutex} (fewer_mem :
      ∀ mutex ∈ fewer, mutex ∈ more) {mutexes : List Mutex}
    (climbs : ClimbsList rank more mutexes) :
    ClimbsList rank fewer mutexes := by
  induction mutexes generalizing more fewer with
  | nil => trivial
  | cons mutex rest induction =>
      constructor
      · intro other member
        exact climbs.1 other (fewer_mem other member)
      · apply induction _ climbs.2
        intro other member
        cases List.mem_cons.mp member with
        | inl here =>
            rw [here]
            exact List.mem_cons_self
        | inr held => exact List.mem_cons_of_mem _ (fewer_mem other held)

theorem Program.Climbs.mono {program : Program Mutex Flag}
    {more fewer : List Mutex}
    (fewer_mem : ∀ mutex ∈ fewer, mutex ∈ more)
    (climbs : program.Climbs rank more) : program.Climbs rank fewer := by
  induction program generalizing more fewer with
  | skip | fork | init | set => trivial
  | seq first second firstMono secondMono
  | alt first second firstMono secondMono
  | test _ first second firstMono secondMono =>
      exact ⟨firstMono fewer_mem climbs.1, secondMono fewer_mem climbs.2⟩
  | loop body bodyMono => exact bodyMono fewer_mem climbs
  | within mutexes body bodyMono =>
      constructor
      · exact climbs.1.mono fewer_mem
      · apply bodyMono _ climbs.2
        intro mutex member
        rw [List.mem_append] at member ⊢
        exact member.imp_right (fewer_mem mutex)
  | tryWithin mutex body bodyMono =>
      apply bodyMono _ climbs
      intro other member
      rw [List.mem_cons] at member ⊢
      exact member.imp_right (fewer_mem other)

theorem stackClimbs_releases (mutexes : List Mutex)
    {rest : List (Frame Mutex Flag)} (climbs : StackClimbs rank rest) :
    StackClimbs rank (mutexes.map .release ++ rest) := by
  induction mutexes with
  | nil => exact climbs
  | cons mutex mutexes induction => exact ⟨trivial, induction⟩

theorem ClimbsList.of_pairwise {held mutexes : List Mutex}
    (above : ∀ other ∈ held, ∀ mutex ∈ mutexes, rank other < rank mutex)
    (ascends : mutexes.Pairwise (rank · < rank ·)) :
    ClimbsList rank held mutexes := by
  induction mutexes generalizing held with
  | nil => trivial
  | cons mutex rest induction =>
      obtain ⟨first, others⟩ := List.pairwise_cons.mp ascends
      constructor
      · exact fun other member => above other member mutex List.mem_cons_self
      · apply induction _ others
        intro other member later isLater
        cases List.mem_cons.mp member with
        | inl here =>
            rw [here]
            exact first later isLater
        | inr held =>
            exact above other held later (List.mem_cons_of_mem _ isLater)

/-! ## Programs that climb from a bound -/

/-- The program climbs as long as the mutexes held rank below the bound. -/
def Program.ClimbsFrom (rank : Mutex → Level) (bound : Level)
    (program : Program Mutex Flag) : Prop :=
  ∀ held, (∀ mutex ∈ held, rank mutex < bound) → program.Climbs rank held

namespace Program.ClimbsFrom

variable {bound next : Level} {first second body : Program Mutex Flag}

theorem skip : (skip : Program Mutex Flag).ClimbsFrom rank bound :=
  fun _ _ => trivial

theorem mono (climbs : body.ClimbsFrom rank next) (below : bound ≤ next) :
    body.ClimbsFrom rank bound :=
  fun held low => climbs held fun mutex member =>
    (low mutex member).trans_le below

theorem seq (firstClimbs : first.ClimbsFrom rank bound)
    (secondClimbs : second.ClimbsFrom rank bound) :
    (Program.seq first second).ClimbsFrom rank bound :=
  fun held low => ⟨firstClimbs held low, secondClimbs held low⟩

theorem alt (firstClimbs : first.ClimbsFrom rank bound)
    (secondClimbs : second.ClimbsFrom rank bound) :
    (Program.alt first second).ClimbsFrom rank bound :=
  fun held low => ⟨firstClimbs held low, secondClimbs held low⟩

theorem test {flag : Flag} (firstClimbs : first.ClimbsFrom rank bound)
    (secondClimbs : second.ClimbsFrom rank bound) :
    (Program.test flag first second).ClimbsFrom rank bound :=
  fun held low => ⟨firstClimbs held low, secondClimbs held low⟩

theorem loop (climbs : body.ClimbsFrom rank bound) :
    (Program.loop body).ClimbsFrom rank bound := climbs

theorem tryWithin {mutex : Mutex} :
    (Program.tryWithin mutex (.skip : Program Mutex Flag)).ClimbsFrom rank
      bound :=
  fun _ _ => trivial

/-- A section of one mutex, and what runs inside it. -/
theorem lock {mutex : Mutex} (above : bound ≤ rank mutex)
    (inside : rank mutex < next) (climbs : body.ClimbsFrom rank next) :
    (Program.within [mutex] body).ClimbsFrom rank bound := by
  intro held low
  refine ⟨⟨?_, trivial⟩, ?_⟩
  · intro other member
    exact (low other member).trans_le above
  · apply climbs
    intro other member
    cases List.mem_cons.mp member with
    | inl here =>
        rw [here]
        exact inside
    | inr held =>
        exact ((low other held).trans_le above).trans inside

theorem critical {mutex : Mutex} (above : bound ≤ rank mutex) :
    (Program.within [mutex] (.skip : Program Mutex Flag)).ClimbsFrom rank
      bound := by
  intro held low
  refine ⟨⟨?_, trivial⟩, trivial⟩
  intro other member
  exact (low other member).trans_le above

end Program.ClimbsFrom

/-! ## Steps -/

section Steps

variable [DecidableEq Mutex] [DecidableEq Flag]

theorem StackClimbs.step {shared after : Shared Mutex Flag}
    {frames rest : List (Frame Mutex Flag)}
    (step : ThreadStep shared frames after rest)
    (climbs : StackClimbs rank frames) : StackClimbs rank rest := by
  cases step with
  | skip | fork | leave | tryFails | init | set | unlock => exact climbs.2
  | seq => exact ⟨climbs.1.1, climbs.1.2, climbs.2⟩
  | alt branch =>
      refine ⟨?_, climbs.2⟩
      rcases branch with rfl | rfl
      · exact climbs.1.1
      · exact climbs.1.2
  | test =>
      refine ⟨?_, climbs.2⟩
      split
      · exact climbs.1.1
      · exact climbs.1.2
  | turn => exact ⟨climbs.1, climbs⟩
  | within => exact climbs
  | tryLocks => exact ⟨climbs.1, trivial, climbs.2⟩
  | @enter locked =>
      refine ⟨?_, stackClimbs_releases locked climbs.2⟩
      rw [held_releases]
      exact climbs.1.2
  | lock =>
      obtain ⟨⟨ascends, body⟩, others⟩ := climbs
      refine ⟨⟨?_, ?_⟩, others⟩
      · apply ascends.2.mono
        intro other member
        simpa [or_comm, or_left_comm] using member
      · apply body.mono
        intro other member
        simpa [or_comm, or_left_comm] using member

end Steps

/-! ## Runs -/

section Runs

variable [DecidableEq Mutex] [DecidableEq Flag] [DecidableEq Thread]
  {program : Call → Program Mutex Flag}
  {init : State Thread Mutex Flag → Prop}
  {state later : State Thread Mutex Flag}

/-- Every thread locks upwards from the mutexes that it has. -/
def AllClimb (rank : Mutex → Level) (state : State Thread Mutex Flag) :
    Prop :=
  ∀ thread, StackClimbs rank (state.threads thread)

theorem AllClimb.next {label : Label Thread Call}
    (programs : ∀ call, (program call).Climbs rank [])
    (climb : AllClimb rank state)
    (taken : lockingNext program state label = some later) :
    AllClimb rank later :=
  threads_next (fun call => ⟨programs call, trivial⟩) StackClimbs.step climb
    taken

omit [DecidableEq Flag] [DecidableEq Mutex] [DecidableEq Thread] in
theorem State.Fresh.allClimb (fresh : state.Fresh) : AllClimb rank state := by
  intro thread
  rw [fresh.2 thread]
  trivial

theorem allClimb_of_reachable
    (programs : ∀ call, (program call).Climbs rank [])
    (initial : ∀ state, init state → AllClimb rank state)
    (reachable : (system program init).Reachable state) :
    AllClimb rank state :=
  reachable.invariant (AllClimb rank) initial
    fun _ _ _ climb _ taken => climb.next programs taken

/-! ## Cycles of waiting threads -/

/-- The next step of the thread locks the mutex. -/
def State.Wants (state : State Thread Mutex Flag) (thread : Thread)
    (mutex : Mutex) : Prop :=
  ∃ pending taken body rest,
    state.threads thread = .acquire (mutex :: pending) taken body :: rest

/-- The thread waits for a mutex that the other one holds. -/
def State.WaitsFor (state : State Thread Mutex Flag)
    (thread other : Thread) : Prop :=
  ∃ mutex, state.Wants thread mutex ∧ state.shared.locked mutex = true ∧
    0 < state.holds other mutex

/-- No threads wait for each other in a cycle, not even one for itself. -/
def NoWaitCycle (state : State Thread Mutex Flag) : Prop :=
  ∀ thread, ¬ Relation.TransGen state.WaitsFor thread thread

omit [DecidableEq Flag] [DecidableEq Thread] in
theorem AllClimb.rank_lt (climb : AllClimb rank state) {thread : Thread}
    {wanted mutex : Mutex} (wants : state.Wants thread wanted)
    (holds : 0 < state.holds thread mutex) : rank mutex < rank wanted := by
  obtain ⟨pending, taken, body, rest, frames⟩ := wants
  have climbs := climb thread
  rw [State.holds, List.count_pos_iff] at holds
  rw [frames] at climbs holds
  apply climbs.1.1.1 mutex
  simpa [held, Frame.held] using holds

omit [DecidableEq Flag] [DecidableEq Thread] in
theorem AllClimb.rank_le (climb : AllClimb rank state)
    {thread other : Thread}
    (waits : Relation.TransGen state.WaitsFor thread other) :
    ∃ wanted mutex, state.Wants thread wanted ∧
      0 < state.holds other mutex ∧ rank wanted ≤ rank mutex := by
  induction waits with
  | single waits =>
      obtain ⟨mutex, wants, _, holds⟩ := waits
      exact ⟨mutex, mutex, wants, holds, le_rfl⟩
  | tail _ waits induction =>
      obtain ⟨wanted, mutex, wants, holds, above⟩ := induction
      obtain ⟨next, wantsNext, _, holdsNext⟩ := waits
      have climbs := climb.rank_lt wantsNext holds
      exact ⟨wanted, next, wants, holdsNext, above.trans climbs.le⟩

omit [DecidableEq Flag] [DecidableEq Thread] in
theorem AllClimb.noWaitCycle (climb : AllClimb rank state) :
    NoWaitCycle state := by
  intro thread waits
  obtain ⟨wanted, mutex, wants, holds, above⟩ := climb.rank_le waits
  exact (climb.rank_lt wants holds).not_ge above

end Runs

end Locking
