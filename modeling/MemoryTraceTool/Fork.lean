import MemoryTraceTool.ToolPrograms

/-!
# Mutexes across fork

Every thread of the process may initialise the tool, use it, scan or fork, and
the child inherits what the other threads have locked.  `mtt_fork_child`
initialises some of the mutexes again.
-/

namespace MemoryTraceTool.Fork

open Locking Transition ToolProgram

/-- A hook and a function of the macro API initialise the tool first. -/
def ToolCall.program : ToolCall → ToolProgram
  | .hook request => .seq mttEnsureInit (request.program mttCaptureStack)
  | .macroApi request => .seq mttEnsureInit (request.program apiCaptureStack)
  | .reporter => reporterThread
  | .signal => signalThread
  | .http => httpThread
  | .atexit => atexitHandler
  | .fork => forkHook

/-- Any number of threads in a process that has just started. -/
def toolSystem (Thread : Type) [DecidableEq Thread] :
    System (ToolState Thread) (Label Thread ToolCall) :=
  system ToolCall.program State.Fresh

/-- The mutexes that `mtt_fork_child` and `mtt_reporter_reset_for_fork`
initialise. -/
def forkChildMutexes : List Mutex :=
  [.scanMutex, .cacheLock, .initLock] ++ bucketLocks ++ poolLocks

/-- `mtt_fork_child` in the process that the real `fork` made. -/
def mttForkChild {Thread : Type} (state : ToolState Thread) :
    ToolState Thread :=
  { state with shared :=
      ((state.shared.init forkChildMutexes).setFlag
        .reporterStarted false).setFlag .initialized false }

/-- The child process, once its hook has returned. -/
def childOf {Thread : Type} (state : ToolState Thread) : ToolState Thread :=
  mttForkChild state.child

/-- The runs of the child. -/
def childSystem {Thread : Type} [DecidableEq Thread]
    (state : ToolState Thread) :
    System (ToolState Thread) (Label Thread ToolCall) :=
  system ToolCall.program fun child => child = childOf state

/-- The thread is about to call the real `fork`. -/
def AtFork {Thread : Type} (state : ToolState Thread) (forker : Thread) :
    Prop :=
  ∃ rest, state.threads forker = .run .fork :: rest

/-- The mutexes that the child inherits as they are. -/
def inheritedMutexes : List Mutex :=
  [.unwindMutex, .timeSeriesLock, .stackCacheLock, .refreshLock, .tsInitLock]

/-! ## Programs that leave a mutex or the process alone -/

/-- The inherited mutexes that no code initialises. -/
def staticMutexes : List Mutex :=
  [.unwindMutex, .stackCacheLock, .refreshLock, .tsInitLock]

/-- No part of the program forks or initialises a static mutex, and the
time-series lock is left to `mtt_ts_init` and to those who find it ready. -/
structure Harmless (program : ToolProgram) : Prop where
  inits : ∀ mutex ∈ staticMutexes, mutex ∉ program.inits
  forks : ¬ program.forks
  behind : program.Behind .tsInitialized .timeSeriesLock
  lazy : program.Lazy .tsInitialized .tsInitLock .timeSeriesLock

namespace Harmless

variable {first second body : ToolProgram}

theorem skip : Harmless .skip :=
  ⟨fun _ _ => List.not_mem_nil, id, trivial, trivial⟩

theorem set (flag : ToolFlag) (other : flag ≠ .tsInitialized)
    (value : Bool) : Harmless (.set flag value) :=
  ⟨fun _ _ => List.not_mem_nil, id, trivial, other⟩

theorem seq (one : Harmless first) (two : Harmless second) :
    Harmless (.seq first second) := by
  refine ⟨?_, ?_, ⟨one.behind, two.behind⟩, ⟨one.lazy, two.lazy⟩⟩
  · intro mutex static member
    rcases List.mem_append.mp member with here | there
    · exact one.inits mutex static here
    · exact two.inits mutex static there
  · rintro (here | there)
    · exact one.forks here
    · exact two.forks there

theorem alt (one : Harmless first) (two : Harmless second) :
    Harmless (.alt first second) :=
  ⟨(one.seq two).inits, (one.seq two).forks, (one.seq two).behind,
    (one.seq two).lazy⟩

theorem test (flag : ToolFlag) (one : Harmless first)
    (two : Harmless second) : Harmless (.test flag first second) :=
  ⟨(one.seq two).inits, (one.seq two).forks, ⟨.inr one.behind, two.behind⟩,
    .inr ⟨one.lazy, two.lazy⟩⟩

theorem loop (harmless : Harmless body) : Harmless (.loop body) :=
  ⟨harmless.inits, harmless.forks, harmless.behind, harmless.lazy⟩

theorem tryWithin (mutex : Mutex) (other : mutex ≠ .timeSeriesLock)
    (harmless : Harmless body) : Harmless (.tryWithin mutex body) :=
  ⟨harmless.inits, harmless.forks, ⟨other, harmless.behind⟩, harmless.lazy⟩

theorem init {mutexes : List Mutex}
    (other : ∀ mutex ∈ inheritedMutexes, mutex ∉ mutexes) :
    Harmless (.init mutexes) := by
  refine ⟨?_, id, trivial, other _ (by decide)⟩
  intro mutex static
  exact other mutex ((by decide : staticMutexes ⊆ inheritedMutexes) static)

theorem lock (mutex : Mutex) (other : mutex ≠ .timeSeriesLock)
    (harmless : Harmless body) : Harmless (ToolProgram.lock mutex body) := by
  refine ⟨harmless.inits, harmless.forks, ⟨?_, harmless.behind⟩,
    harmless.lazy⟩
  exact fun member => other (List.mem_singleton.mp member).symm

theorem critical (mutex : Mutex) (other : mutex ≠ .timeSeriesLock) :
    Harmless (ToolProgram.critical mutex) :=
  lock mutex other skip

theorem optional (harmless : Harmless body) :
    Harmless (ToolProgram.optional body) :=
  skip.alt harmless

theorem timeSeriesSection : Harmless timeSeriesSection := by
  refine ⟨fun _ _ => List.not_mem_nil, ?_, ⟨.inl rfl, trivial⟩, .inr ?_⟩
  · rintro ((here | here) | here) <;> exact here
  · exact ⟨⟨trivial, trivial⟩, trivial⟩

theorem mttTsInit : Harmless mttTsInit := by
  refine ⟨?_, ?_, ?_, .inl rfl⟩
  · decide
  · rintro (here | here | here | here) <;> exact here
  · exact ⟨.inl rfl, by decide, .inl rfl, trivial, trivial⟩

theorem mttCaptureStack : Harmless mttCaptureStack := by
  have capture := optional (critical .unwindMutex nofun)
  exact capture.seq capture

theorem giveBack (slot : Stripe) : Harmless (giveBack slot) :=
  optional (critical (.poolLock slot) nofun)

theorem stealFrom (found : Harmless body) (list : List Stripe) :
    Harmless (stealFrom body list) := by
  induction list with
  | nil => exact skip
  | cons stripe rest induction =>
      exact (tryWithin (.poolLock stripe) nofun skip).seq
        (found.alt induction)

theorem mttEntryNew (capture : Harmless body) (stripe : Stripe) :
    Harmless (mttEntryNew body stripe) := by
  apply alt
  · exact (critical (.poolLock stripe) nofun).seq
      (capture.alt (stealFrom capture _))
  · exact optional capture

theorem removeEntry (stripe slot : Stripe) :
    Harmless (removeEntry stripe slot) :=
  lock (.bucketLock stripe) nofun (giveBack slot)

theorem request (capture : Harmless body) (request : Request) :
    Harmless (request.program body) := by
  have locked (stripe : Stripe) : Harmless
      (ToolProgram.critical (.bucketLock stripe)) :=
    critical (.bucketLock stripe) nofun
  cases request with
  | malloc stripe slot =>
      apply optional
      apply (mttEntryNew capture stripe).seq
      exact optional ((locked stripe).seq (giveBack slot))
  | free stripe slot => exact optional (removeEntry stripe slot)
  | realloc old new oldSlot newSlot =>
      apply optional
      apply (locked old).seq
      apply optional
      apply (removeEntry old oldSlot).seq
      apply optional
      apply (mttEntryNew capture new).seq
      exact optional (lock (.bucketLock new) nofun (giveBack newSlot))
  | reallocFallback old new oldSlot newSlot =>
      apply optional
      apply (mttEntryNew capture new).seq
      apply optional
      apply (removeEntry old oldSlot).seq
      exact (locked new).seq (giveBack newSlot)

theorem anyOf {programs : List ToolProgram}
    (harmless : ∀ program ∈ programs, Harmless program) :
    Harmless (anyOf programs) := by
  induction programs with
  | nil => exact skip
  | cons program rest induction =>
      obtain ⟨first, others⟩ := List.forall_mem_cons.mp harmless
      exact first.alt (induction others)

theorem hookCalls (capture : Harmless body) : Harmless (hookCalls body) := by
  apply loop
  apply anyOf
  intro program isProgram
  obtain ⟨made, _, rfl⟩ := List.mem_map.mp isProgram
  exact request capture made

theorem apiCaptureStack : Harmless apiCaptureStack := by
  have calls : Harmless unwinderCalls := hookCalls skip
  have unwinds := optional (lock .unwindMutex nofun calls)
  exact calls.seq (unwinds.seq (calls.seq unwinds))

theorem toolCalls : Harmless toolCalls :=
  hookCalls mttCaptureStack

theorem mttReporterStart : Harmless mttReporterStart := by
  apply test _ skip
  apply (set .reporterStarted nofun true).seq
  apply (init (by decide)).seq
  exact optional (set .reporterStarted nofun false)

theorem mttEnsureInit : Harmless mttEnsureInit := by
  have stripesInit : Harmless (.init (bucketLocks ++ poolLocks)) := by
    apply init
    simp [inheritedMutexes, bucketLocks, poolLocks]
  apply test _ skip
  apply seq
  · apply lock .initLock nofun
    apply test _ skip
    exact (optional stripesInit).seq (set .initialized nofun true)
  · exact optional (mttTsInit.seq (optional mttReporterStart))

theorem scanStripes (list : List Stripe) : Harmless (scanStripes list) := by
  induction list with
  | nil => exact skip
  | cons stripe rest induction =>
      exact (critical (.bucketLock stripe) nofun).seq (optional induction)

theorem scanAndReport : Harmless scanAndReport := by
  have lookups := loop ((critical .stackCacheLock nofun).seq toolCalls)
  have caches := optional (lock .cacheLock nofun timeSeriesSection)
  have copies := timeSeriesSection.seq
    (optional (critical .cacheLock nofun))
  apply lock .scanMutex nofun
  apply test _ _ skip
  apply (critical .refreshLock nofun).seq
  apply copies.seq
  apply toolCalls.seq
  apply optional
  exact (optional (scanStripes stripes)).seq
    (lookups.seq (caches.seq toolCalls))

theorem recordPoint : Harmless recordPoint :=
  toolCalls.seq timeSeriesSection

theorem reporterThread : Harmless reporterThread := by
  have rounds := loop ((loop recordPoint).seq
    (optional (scanAndReport.seq toolCalls)))
  exact recordPoint.seq (scanAndReport.seq (rounds.seq scanAndReport))

theorem signalThread : Harmless signalThread :=
  loop (recordPoint.seq (optional scanAndReport))

theorem httpThread : Harmless httpThread := by
  have caches := lock .cacheLock nofun toolCalls
  exact loop (toolCalls.seq ((timeSeriesSection.seq caches).alt
    (optional caches)))

theorem forkHook_lazily : forkHook.UsesLazily .tsInitialized .tsInitLock
    .timeSeriesLock :=
  ⟨⟨by decide, trivial⟩, trivial, List.not_mem_nil⟩

end Harmless

/-- Only the fork hook forks, and no call initialises a static mutex. -/
theorem ToolCall.program_cases (call : ToolCall) :
    call.program = .within bucketLocks .fork ∨ Harmless call.program := by
  cases call with
  | fork => exact Or.inl rfl
  | hook request =>
      exact Or.inr (Harmless.mttEnsureInit.seq
        (.request .mttCaptureStack request))
  | macroApi request =>
      exact Or.inr (Harmless.mttEnsureInit.seq
        (.request .apiCaptureStack request))
  | reporter => exact Or.inr .reporterThread
  | signal => exact Or.inr .signalThread
  | http => exact Or.inr .httpThread
  | atexit => exact Or.inr (.optional (.critical .cacheLock nofun))

theorem ToolCall.forks_cases (call : ToolCall) :
    call.program = .within bucketLocks .fork ∨ ¬ call.program.forks :=
  call.program_cases.imp id Harmless.forks

theorem ToolCall.inits_clear {mutex : Mutex}
    (static : mutex ∈ staticMutexes) (call : ToolCall) :
    mutex ∉ call.program.inits := by
  rcases call.program_cases with forks | harmless
  · rw [forks]
    exact List.not_mem_nil
  · exact harmless.inits mutex static

theorem ToolCall.usesLazily (call : ToolCall) :
    call.program.UsesLazily .tsInitialized .tsInitLock .timeSeriesLock := by
  rcases call.program_cases with forks | harmless
  · rw [forks]
    exact Harmless.forkHook_lazily
  · exact ⟨harmless.behind, harmless.lazy, harmless.inits _ (by decide)⟩

/-! ## The child of every reachable state -/

variable {Thread : Type} [DecidableEq Thread] {state : ToolState Thread}
  {forker : Thread}

theorem forkPosition_of_reachable
    (reachable : (toolSystem Thread).Reachable state) (thread : Thread) :
    ForkPosition bucketLocks (state.threads thread) := by
  refine reachable.invariant
    (fun state => ∀ thread, ForkPosition bucketLocks (state.threads thread))
    ?_ ?_ thread
  · intro state fresh thread
    rw [fresh.2 thread]
    apply ForkPosition.elsewhere
    intro frame member
    cases member
  · intro _ _ _ positions _ taken
    exact forkPosition_next ToolCall.forks_cases positions taken

theorem inherited_exclusive
    (reachable : (toolSystem Thread).Reachable state) {mutex : Mutex}
    (inherited : mutex ∈ inheritedMutexes) : Exclusive mutex state := by
  have static : mutex ∈ staticMutexes → Exclusive mutex state :=
    fun member =>
      (exclusive_of_reachable (ToolCall.inits_clear member) reachable).2
  cases mutex with
  | timeSeriesLock =>
      exact (lazyInvariant_of_reachable ToolCall.usesLazily
        reachable).exclusive
  | unwindMutex | stackCacheLock | refreshLock | tsInitLock =>
      exact static (by decide)
  | bucketLock | poolLock | initLock | scanMutex | cacheLock =>
      simp [inheritedMutexes] at inherited

theorem owned_of_toolReachable
    (reachable : (toolSystem Thread).Reachable state) : Owned state :=
  owned_of_reachable (fun _ => State.Fresh.owned) reachable

/-- The forking thread holds the stripe locks and nothing else. -/
theorem AtFork.held_eq (reachable : (toolSystem Thread).Reachable state)
    (forking : AtFork state forker) :
    held (state.threads forker) = bucketLocks := by
  obtain ⟨rest, here⟩ := forking
  have position := forkPosition_of_reachable reachable forker
  rw [here] at position ⊢
  exact position.held_eq

omit [DecidableEq Thread] in
theorem childOf_locked (state : ToolState Thread) (mutex : Mutex) :
    (childOf state).shared.locked mutex =
      if mutex ∈ forkChildMutexes then false
      else state.shared.locked mutex :=
  rfl

theorem mem_inherited_or_forkChild (mutex : Mutex) :
    mutex ∈ inheritedMutexes ∨ mutex ∈ forkChildMutexes := by
  cases mutex <;> simp [inheritedMutexes, forkChildMutexes, bucketLocks,
    poolLocks, stripes]

theorem not_mem_forkChild {mutex : Mutex}
    (inherited : mutex ∈ inheritedMutexes) : mutex ∉ forkChildMutexes := by
  simp only [inheritedMutexes, List.mem_cons, List.not_mem_nil,
    or_false] at inherited
  rcases inherited with rfl | rfl | rfl | rfl | rfl <;>
    simp [forkChildMutexes, bucketLocks, poolLocks]

/-- No other thread is inside a section of an inherited mutex. -/
def OthersOutside (state : ToolState Thread) (forker : Thread) : Prop :=
  ∀ thread, thread ≠ forker →
    ∀ mutex ∈ inheritedMutexes, mutex ∉ held (state.threads thread)

/-- The child starts with every mutex unlocked, and in its runs every locked
mutex has an owner. -/
def ChildUnblocked (state : ToolState Thread) : Prop :=
  (∀ mutex, (childOf state).shared.locked mutex = false) ∧
    ∀ later, (childSystem state).Reachable later → Owned later

theorem forkChild_unblocked_iff
    (reachable : (toolSystem Thread).Reachable state)
    (forking : AtFork state forker) :
    ChildUnblocked state ↔ OthersOutside state forker := by
  constructor
  · rintro ⟨unlocked, _⟩ thread _ mutex inherited member
    have exclusive := inherited_exclusive reachable inherited
    have free := unlocked mutex
    rw [childOf_locked, if_neg (not_mem_forkChild inherited)] at free
    have holds := exclusive.free free thread
    exact List.count_eq_zero.mp holds member
  · intro outside
    have unlocked : ∀ mutex,
        (childOf state).shared.locked mutex = false := by
      intro mutex
      rw [childOf_locked]
      split
      · rfl
      · rename_i missed
        have inherited :=
          (mem_inherited_or_forkChild mutex).resolve_right missed
        by_contra locked
        obtain ⟨owner, holds⟩ := owned_of_toolReachable reachable mutex
          (Bool.eq_true_of_not_eq_false locked)
        have member := List.count_pos_iff.mp holds
        by_cases here : owner = forker
        · rw [here, forking.held_eq reachable] at member
          apply missed
          simp [forkChildMutexes, member]
        · exact outside owner here mutex inherited member
    refine ⟨unlocked, fun later steps => ?_⟩
    refine owned_of_reachable ?_ steps
    rintro _ rfl mutex locked
    rw [unlocked mutex] at locked
    cases locked

/-- A process before its first call. -/
def processStart : ToolState Worker :=
  { shared := ⟨fun _ => false, fun _ => false⟩
    threads := fun _ => [] }

/-- The first thread calls `fork` and takes the stripe locks. -/
def forkSteps : List (Label Worker ToolCall) :=
  .start .first .fork :: List.replicate 66 (.step .first true)

/-- The second thread allocates, initialises the tool and its time series, and
stops inside `mtt_libunwind_capture`. -/
def captureSteps : List (Label Worker ToolCall) :=
  .start .second (.hook (.malloc ⟨0, by decide⟩ ⟨0, by decide⟩)) ::
    (List.replicate 8 true ++ [false] ++ List.replicate 3 true ++ [false] ++
      List.replicate 12 true ++ [false] ++ List.replicate 10 true ++
      [false, true, true, true]).map (.step .second)

theorem forkChild_unblocked_idleProcess :
    ∃ state : ToolState Worker,
      AtFork state .first ∧ OthersOutside state .first ∧
        (ChildUnblocked state ↔ OthersOutside state .first) := by
  obtain ⟨state, reachable, tested⟩ :=
    (toolSystem Worker).exists_reachable_of_run
      (fun state => (state.threads .first).head? == some (.run .fork) &&
        (state.threads .second).isEmpty && (state.threads .third).isEmpty)
      forkSteps ⟨fun _ => rfl, fun _ => rfl⟩
      (show ((toolSystem Worker).run processStart forkSteps).any _ = true by
        decide +kernel)
  rw [Bool.and_eq_true, Bool.and_eq_true, beq_iff_eq, List.isEmpty_iff,
    List.isEmpty_iff, List.head?_eq_some_iff] at tested
  obtain ⟨⟨forking, second⟩, third⟩ := tested
  refine ⟨state, forking, ?_, forkChild_unblocked_iff reachable forking⟩
  intro thread different mutex _ member
  cases thread with
  | first => exact different rfl
  | second =>
      rw [second] at member
      cases member
  | third =>
      rw [third] at member
      cases member

/-- A fork while another thread captures its stack: the child inherits a
locked `g_unwind_mutex` that no run of the child unlocks. -/
theorem forkChild_blocked_capturingThread :
    ∃ state : ToolState Worker, (toolSystem Worker).Reachable state ∧
      AtFork state .first ∧ ¬ ChildUnblocked state ∧
        ∀ later, (childSystem state).Reachable later →
          later.shared.locked .unwindMutex = true := by
  obtain ⟨state, reachable, tested⟩ :=
    (toolSystem Worker).exists_reachable_of_run
      (fun state => (state.threads .first).head? == some (.run .fork) &&
        state.shared.flags .tsInitialized &&
        state.shared.locked .unwindMutex)
      (captureSteps ++ forkSteps) ⟨fun _ => rfl, fun _ => rfl⟩
      (show ((toolSystem Worker).run processStart _).any _ = true by
        decide +kernel)
  rw [Bool.and_eq_true, Bool.and_eq_true, beq_iff_eq,
    List.head?_eq_some_iff] at tested
  obtain ⟨⟨forking, _⟩, locked⟩ := tested
  have inherited : Mutex.unwindMutex ∈ inheritedMutexes :=
    List.mem_cons_self
  have static : Mutex.unwindMutex ∈ staticMutexes := List.mem_cons_self
  have childLocked : (childOf state).shared.locked .unwindMutex = true := by
    rw [childOf_locked, if_neg (not_mem_forkChild inherited)]
    exact locked
  refine ⟨state, reachable, forking, ?_, ?_⟩
  · rintro ⟨unlocked, _⟩
    rw [unlocked .unwindMutex] at childLocked
    cases childLocked
  · intro later steps
    have orphaned : Orphaned .unwindMutex later := by
      refine steps.invariant (Orphaned .unwindMutex) ?_ ?_
      · rintro _ rfl
        refine ⟨?_, childLocked, fun _ => rfl⟩
        intro thread frame member
        cases member
      · intro _ _ _ orphaned _ taken
        exact orphaned.next (ToolCall.inits_clear static) taken
    exact orphaned.locked

end MemoryTraceTool.Fork
