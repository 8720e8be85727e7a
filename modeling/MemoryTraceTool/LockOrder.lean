import MemoryTraceTool.Lib.LockRank
import MemoryTraceTool.ToolPrograms

/-!
# The order of the mutexes

Once the tool is initialised its threads wait only for mutexes that rank above
those they hold, so they never wait for each other in a cycle.
-/

namespace MemoryTraceTool.LockOrder

open Locking Transition Fork Fork.ToolProgram

/-- What a call does once the tool is initialised. -/
def serving : ToolCall → ToolProgram
  | .hook request => request.program mttCaptureStack
  | .macroApi request => request.program apiCaptureStack
  | .reporter => reporterThread
  | .signal => signalThread
  | .http => httpThread
  | .atexit => atexitHandler
  | .fork => forkHook

/-- The tool is initialised, and no thread is inside it. -/
def Serving {Thread : Type} (state : ToolState Thread) : Prop :=
  state.Fresh ∧ state.shared.flags .initialized = true

/-- Any number of threads in a process with an initialised tool. -/
def servingSystem (Thread : Type) [DecidableEq Thread] :
    System (ToolState Thread) (Label Thread ToolCall) :=
  system serving Serving

/-! ## The ranks -/

def mutexRank : Mutex → Nat
  | .scanMutex => 0
  | .cacheLock => 1
  | .initLock | .tsInitLock | .timeSeriesLock | .refreshLock
  | .stackCacheLock => 2
  | .unwindMutex => 3
  | .bucketLock stripe => 4 + stripe
  | .poolLock _ => 4 + mttLockStripes

/-- The program may start while mutexes below the bound are held. -/
abbrev StartsAbove (bound : Nat) (program : ToolProgram) : Prop :=
  program.ClimbsFrom mutexRank bound

theorem rank_bucketLock_lt (stripe : Stripe) :
    mutexRank (.bucketLock stripe) < 4 + mttLockStripes :=
  Nat.add_lt_add_left stripe.isLt 4

theorem le_rank_bucketLock {bound : Nat} (low : bound ≤ 4)
    (stripe : Stripe) : bound ≤ mutexRank (.bucketLock stripe) :=
  low.trans (Nat.le_add_right 4 stripe)

section Programs

variable {bound : Nat} {capture body : ToolProgram}

theorem optional_startsAbove (starts : StartsAbove bound body) :
    StartsAbove bound (optional body) :=
  .alt .skip starts

theorem giveBack_startsAbove (slot : Stripe)
    (below : bound ≤ 4 + mttLockStripes) :
    StartsAbove bound (giveBack slot) := by
  apply optional_startsAbove
  exact .critical below

theorem stealFrom_startsAbove (starts : StartsAbove bound capture)
    (list : List Stripe) : StartsAbove bound (stealFrom capture list) := by
  induction list with
  | nil => exact .skip
  | cons stripe rest induction =>
      apply Program.ClimbsFrom.seq
      · exact .tryWithin
      · exact .alt starts induction

theorem mttEntryNew_startsAbove (below : bound ≤ 4 + mttLockStripes)
    (starts : StartsAbove bound capture) (stripe : Stripe) :
    StartsAbove bound (mttEntryNew capture stripe) := by
  apply Program.ClimbsFrom.alt
  · apply Program.ClimbsFrom.seq
    · exact .critical below
    · exact .alt starts (stealFrom_startsAbove starts _)
  · exact optional_startsAbove starts

theorem bucketLock_startsAbove (low : bound ≤ 4) (stripe slot : Stripe) :
    StartsAbove bound (lock (.bucketLock stripe) (giveBack slot)) := by
  apply Program.ClimbsFrom.lock (le_rank_bucketLock low stripe)
    (rank_bucketLock_lt stripe)
  exact giveBack_startsAbove slot le_rfl

theorem bucketLock_critical (low : bound ≤ 4) (stripe : Stripe) :
    StartsAbove bound (critical (.bucketLock stripe)) :=
  .critical (le_rank_bucketLock low stripe)

/-- A request takes no lock below those of its capture and the stripes. -/
theorem request_startsAbove (low : bound ≤ 4)
    (starts : StartsAbove bound capture) (request : Request) :
    StartsAbove bound (request.program capture) := by
  have below : bound ≤ 4 + mttLockStripes :=
    low.trans (Nat.le_add_right 4 _)
  have entry (stripe : Stripe) : StartsAbove bound
      (mttEntryNew capture stripe) :=
    mttEntryNew_startsAbove below starts stripe
  cases request with
  | malloc stripe slot =>
      apply optional_startsAbove
      apply (entry stripe).seq
      apply optional_startsAbove
      exact (bucketLock_critical low stripe).seq
        (giveBack_startsAbove slot below)
  | free stripe slot =>
      apply optional_startsAbove
      exact bucketLock_startsAbove low stripe slot
  | realloc old new oldSlot newSlot =>
      apply optional_startsAbove
      apply (bucketLock_critical low old).seq
      apply optional_startsAbove
      apply (bucketLock_startsAbove low old oldSlot).seq
      apply optional_startsAbove
      apply (entry new).seq
      apply optional_startsAbove
      exact bucketLock_startsAbove low new newSlot
  | reallocFallback old new oldSlot newSlot =>
      apply optional_startsAbove
      apply (entry new).seq
      apply optional_startsAbove
      apply (bucketLock_startsAbove low old oldSlot).seq
      exact (bucketLock_critical low new).seq
        (giveBack_startsAbove newSlot below)

theorem anyOf_startsAbove {programs : List ToolProgram}
    (starts : ∀ program ∈ programs, StartsAbove bound program) :
    StartsAbove bound (anyOf programs) := by
  induction programs with
  | nil => exact .skip
  | cons program rest induction =>
      obtain ⟨first, others⟩ := List.forall_mem_cons.mp starts
      exact .alt first (induction others)

theorem hookCalls_startsAbove (low : bound ≤ 4)
    (starts : StartsAbove bound capture) :
    StartsAbove bound (hookCalls capture) := by
  apply Program.ClimbsFrom.loop
  apply anyOf_startsAbove
  intro program isProgram
  obtain ⟨request, _, rfl⟩ := List.mem_map.mp isProgram
  exact request_startsAbove low starts request

theorem mttCaptureStack_startsAbove (low : bound ≤ 3) :
    StartsAbove bound mttCaptureStack := by
  apply Program.ClimbsFrom.seq
  · exact optional_startsAbove (.critical low)
  · exact optional_startsAbove (.critical low)

theorem toolCalls_startsAbove (low : bound ≤ 3) :
    StartsAbove bound toolCalls :=
  hookCalls_startsAbove (low.trans (Nat.le_succ 3))
    (mttCaptureStack_startsAbove low)

theorem apiCaptureStack_startsAbove (low : bound ≤ 3) :
    StartsAbove bound apiCaptureStack := by
  have calls : StartsAbove 4 unwinderCalls := hookCalls_startsAbove le_rfl .skip
  have outside : StartsAbove bound unwinderCalls :=
    calls.mono (low.trans (Nat.le_succ 3))
  have unwinds : StartsAbove bound
      (optional (lock .unwindMutex unwinderCalls)) := by
    apply optional_startsAbove
    exact .lock low (Nat.lt_succ_self 3) calls
  exact outside.seq (unwinds.seq (outside.seq unwinds))

theorem timeSeriesSection_startsAbove (low : bound ≤ 2) :
    StartsAbove bound timeSeriesSection :=
  .test (optional_startsAbove (.critical low)) .skip

theorem recordPoint_startsAbove (low : bound ≤ 2) :
    StartsAbove bound recordPoint := by
  apply (toolCalls_startsAbove (low.trans (Nat.le_succ 2))).seq
  exact timeSeriesSection_startsAbove low

theorem scanStripes_startsAbove (low : bound ≤ 4) (list : List Stripe) :
    StartsAbove bound (scanStripes list) := by
  induction list with
  | nil => exact .skip
  | cons stripe rest induction =>
      exact (bucketLock_critical low stripe).seq
        (optional_startsAbove induction)

theorem cacheLock_startsAbove (low : bound ≤ 1)
    (starts : StartsAbove 2 body) :
    StartsAbove bound (lock .cacheLock body) :=
  .lock low (Nat.lt_succ_self 1) starts

theorem scanAndReportLocked_startsAbove :
    StartsAbove 1 Fork.scanAndReportLocked := by
  have calls : StartsAbove 1 toolCalls := toolCalls_startsAbove (by decide)
  have cache : StartsAbove 1 (lock .cacheLock timeSeriesSection) :=
    cacheLock_startsAbove le_rfl (timeSeriesSection_startsAbove le_rfl)
  have copies : StartsAbove 1 scanTimeSeries := by
    apply (timeSeriesSection_startsAbove (by decide)).seq
    apply optional_startsAbove
    exact cacheLock_startsAbove le_rfl .skip
  have lookups : StartsAbove 1
      (.loop (.seq (critical .stackCacheLock) toolCalls)) := by
    apply Program.ClimbsFrom.loop
    exact Program.ClimbsFrom.seq (.critical (by decide)) calls
  have snapshots := optional_startsAbove
    (scanStripes_startsAbove (by decide : 1 ≤ 4) stripes)
  apply Program.ClimbsFrom.test _ .skip
  apply Program.ClimbsFrom.seq (.critical (by decide))
  apply copies.seq
  apply calls.seq
  apply optional_startsAbove
  exact snapshots.seq
    (lookups.seq ((optional_startsAbove cache).seq calls))

theorem scanAndReport_startsAbove :
    StartsAbove 0 Fork.scanAndReport :=
  .lock le_rfl Nat.zero_lt_one scanAndReportLocked_startsAbove

theorem httpThread_startsAbove : StartsAbove 0 httpThread := by
  have calls : StartsAbove 2 toolCalls := toolCalls_startsAbove (by decide)
  have cache := cacheLock_startsAbove (Nat.zero_le 1) calls
  apply Program.ClimbsFrom.loop
  apply (calls.mono (Nat.zero_le 2)).seq
  apply Program.ClimbsFrom.alt
  · apply Program.ClimbsFrom.seq _ cache
    exact timeSeriesSection_startsAbove (Nat.zero_le 2)
  · exact optional_startsAbove cache

/-- The stripe locks rank in the order in which `mtt_fork_prepare` takes
them. -/
theorem bucketLocks_ascend :
    bucketLocks.Pairwise (mutexRank · < mutexRank ·) := by
  apply List.pairwise_map.mpr
  apply (List.pairwise_lt_finRange mttLockStripes).imp
  intro first second lower
  exact Nat.add_lt_add_left lower 4

theorem forkHook_climbs : forkHook.Climbs mutexRank [] := by
  constructor
  · apply ClimbsList.of_pairwise _ bucketLocks_ascend
    intro other held
    cases held
  · trivial

end Programs

theorem serving_climbs (call : ToolCall) :
    (serving call).Climbs mutexRank [] := by
  have points : StartsAbove 0 recordPoint :=
    recordPoint_startsAbove (Nat.zero_le 2)
  have scans := scanAndReport_startsAbove
  have start {program : ToolProgram} (starts : StartsAbove 0 program) :
      program.Climbs mutexRank [] := by
    apply starts
    intro mutex held
    cases held
  cases call with
  | hook request =>
      apply start
      exact request_startsAbove (Nat.zero_le 4)
        (mttCaptureStack_startsAbove (Nat.zero_le 3)) request
  | macroApi request =>
      apply start
      exact request_startsAbove (Nat.zero_le 4)
        (apiCaptureStack_startsAbove (Nat.zero_le 3)) request
  | reporter =>
      apply start
      apply points.seq
      apply scans.seq
      apply Program.ClimbsFrom.seq _ scans
      apply Program.ClimbsFrom.loop
      apply Program.ClimbsFrom.seq (.loop points)
      apply optional_startsAbove
      exact scans.seq (toolCalls_startsAbove (Nat.zero_le 3))
  | signal =>
      apply start
      apply Program.ClimbsFrom.loop
      exact points.seq (optional_startsAbove scans)
  | http => exact start httpThread_startsAbove
  | atexit =>
      apply start
      exact optional_startsAbove (.critical (Nat.zero_le 1))
  | fork => exact forkHook_climbs

variable {Thread : Type} [DecidableEq Thread] {state : ToolState Thread}

/-- Once the tool is initialised its threads never wait for each other in a
cycle. -/
theorem noWaitCycle_of_serving
    (reachable : (servingSystem Thread).Reachable state) :
    NoWaitCycle state := by
  have climb : AllClimb mutexRank state := by
    apply allClimb_of_reachable serving_climbs _ reachable
    exact fun _ serving => serving.1.allClimb
  exact climb.noWaitCycle

def servingStart : ToolState Worker :=
  { shared := ⟨fun _ => false, fun _ => true⟩
    threads := fun _ => [] }

def firstStripe : Stripe := (0 : Fin 64)

/-- The first thread stops in the stripe section of `malloc`, and the second
one calls `fork`. -/
def waitingSteps : List (Label Worker ToolCall) :=
  .start .first (.hook (.malloc firstStripe firstStripe)) ::
    [false, true, false, true, true, false, true, true, true].map
      (.step .first) ++ [.start .second .fork, .step .second true]

theorem noWaitCycle_waitingFork :
    ∃ state : ToolState Worker,
      state.WaitsFor .second .first ∧ NoWaitCycle state := by
  obtain ⟨state, reachable, tested⟩ :=
    (servingSystem Worker).exists_reachable_of_run
      (fun state =>
        (state.threads .second).head? == some (.acquire bucketLocks [] .fork) &&
          state.shared.locked (.bucketLock firstStripe) &&
          state.holds .first (.bucketLock firstStripe) == 1)
      waitingSteps ⟨⟨fun _ => rfl, fun _ => rfl⟩, rfl⟩
      (show ((servingSystem Worker).run servingStart waitingSteps).any _ =
        true by decide +kernel)
  rw [Bool.and_eq_true, Bool.and_eq_true, beq_iff_eq, beq_iff_eq,
    List.head?_eq_some_iff] at tested
  obtain ⟨⟨⟨rest, waiting⟩, locked⟩, holds⟩ := tested
  refine ⟨state, ?_, noWaitCycle_of_serving reachable⟩
  refine ⟨.bucketLock firstStripe, ?_, locked, ?_⟩
  · exact ⟨bucketLocks.tail, [], .fork, rest, waiting⟩
  · rw [holds]
    exact Nat.zero_lt_one

end MemoryTraceTool.LockOrder
