import Mathlib.Data.Fintype.Pi
import MemoryTraceTool.Basic
import MemoryTraceTool.Lib.LazyMutex

/-!
# What the threads do to the mutexes

The sections of the tool as locking programs.  A branch on anything but
`initialized`, `g_ts_initialized` and `g_reporter_started` is left open.  A
call made by the code of the tool itself comes back in through the hooks: a
function of the macro API does not raise the depth of its thread, so a hook
called by the unwinder tracks its block, without another capture; and a thread
of the tool that found no slot to mark is served like a thread of the
application.  The `fork` of libc calls no hook.
-/

namespace MemoryTraceTool.Fork

open Locking

abbrev Stripe := Fin mttLockStripes

/-- The mutexes of the tool. -/
inductive Mutex where
  | bucketLock (stripe : Stripe)
  | poolLock (stripe : Stripe)
  | initLock
  | tsInitLock
  | scanMutex
  | cacheLock
  | unwindMutex
  | timeSeriesLock
  | stackCacheLock
  | refreshLock
  deriving DecidableEq, Repr

/-- The flags that its programs test. -/
inductive ToolFlag where
  | initialized
  | tsInitialized
  | reporterStarted
  deriving DecidableEq, Repr

abbrev ToolProgram := Program Mutex ToolFlag

def stripes : List Stripe :=
  List.finRange mttLockStripes

def bucketLocks : List Mutex :=
  stripes.map .bucketLock

def poolLocks : List Mutex :=
  stripes.map .poolLock

namespace ToolProgram

def lock (mutex : Mutex) (body : ToolProgram) : ToolProgram :=
  .within [mutex] body

/-- A critical section without further locks. -/
def critical (mutex : Mutex) : ToolProgram :=
  .within [mutex] .skip

def optional (body : ToolProgram) : ToolProgram :=
  .alt .skip body

end ToolProgram

open ToolProgram

/-! ## Tracking -/

/-- `mtt_libunwind_capture`, and `mtt_safe_backtrace` when libunwind is
disabled for the thread. -/
def mttCaptureStack : ToolProgram :=
  .seq (optional (critical .unwindMutex)) (optional (critical .unwindMutex))

/-- Give a slot back to the pool, if there is one. -/
def giveBack (slot : Stripe) : ToolProgram :=
  optional (critical (.poolLock slot))

/-- Try the pools of the other stripes until one has a slot. -/
def stealFrom (found : ToolProgram) : List Stripe → ToolProgram
  | [] => .skip
  | stripe :: rest =>
      .seq (.tryWithin (.poolLock stripe) .skip)
        (.alt found (stealFrom found rest))

def neighbours (stripe : Stripe) : List Stripe :=
  (List.range (mttLockStripes - 1)).map fun k =>
    ⟨(stripe.val + (k + 1)) % mttLockStripes, Nat.mod_lt _ (by decide)⟩

/-- `mtt_entry_new` in pool mode, or with `raw_malloc`. -/
def mttEntryNew (capture : ToolProgram) (stripe : Stripe) : ToolProgram :=
  .alt
    (.seq (critical (.poolLock stripe))
      (.alt capture (stealFrom capture (neighbours stripe))))
    (optional capture)

/-- Remove the entry of a block under its stripe lock, if it has one. -/
def removeEntry (stripe slot : Stripe) : ToolProgram :=
  lock (.bucketLock stripe) (giveBack slot)

/-- A call of a hook or of the macro API, with the stripes of its blocks and
of the slots that it gives back.  `calloc` is served by `malloc`. -/
inductive Request where
  | malloc (stripe slot : Stripe)
  | free (stripe slot : Stripe)
  | realloc (old new oldSlot newSlot : Stripe)
  | reallocFallback (old new oldSlot newSlot : Stripe)
  deriving DecidableEq, Repr

/-- The call after `mtt_ensure_init` has returned.  A full table sends the new
slot of a `realloc` back under the stripe lock. -/
def Request.program (capture : ToolProgram) : Request → ToolProgram
  | .malloc stripe slot =>
      optional
        (.seq (mttEntryNew capture stripe)
          (optional
            (.seq (critical (.bucketLock stripe)) (giveBack slot))))
  | .free stripe slot => optional (removeEntry stripe slot)
  | .realloc old new oldSlot newSlot =>
      optional
        (.seq (critical (.bucketLock old))
          (optional
            (.seq (removeEntry old oldSlot)
              (optional
                (.seq (mttEntryNew capture new)
                  (optional
                    (lock (.bucketLock new) (giveBack newSlot))))))))
  | .reallocFallback old new oldSlot newSlot =>
      optional
        (.seq (mttEntryNew capture new)
          (optional
            (.seq (removeEntry old oldSlot)
              (.seq (critical (.bucketLock new)) (giveBack newSlot)))))

/-- All the requests that a nested call may make. -/
def requests : List Request :=
  stripes.flatMap fun first => stripes.flatMap fun second =>
    [.malloc first second, .free first second] ++
      stripes.flatMap fun third => stripes.flatMap fun fourth =>
        [.realloc first second third fourth,
          .reallocFallback first second third fourth]

def anyOf : List ToolProgram → ToolProgram
  | [] => .skip
  | program :: rest => .alt program (anyOf rest)

/-- Any calls of the hooks, one after the other. -/
def hookCalls (capture : ToolProgram) : ToolProgram :=
  .loop (anyOf (requests.map (Request.program capture)))

/-- What the unwinder and the loading of it call under a function of the macro
API: the capture flag of the thread is set. -/
def unwinderCalls : ToolProgram :=
  hookCalls .skip

/-- `mtt_capture_stack` under a function of the macro API. -/
def apiCaptureStack : ToolProgram :=
  .seq unwinderCalls
    (.seq (optional (lock .unwindMutex unwinderCalls))
      (.seq unwinderCalls (optional (lock .unwindMutex unwinderCalls))))

/-! ## Initialisation -/

def mttReporterStart : ToolProgram :=
  .test .reporterStarted .skip
    (.seq (.set .reporterStarted true)
      (.seq (.init [.scanMutex, .cacheLock])
        (optional (.set .reporterStarted false))))

/-- `mtt_ts_init`, with the mutex that it declares itself. -/
def mttTsInit : ToolProgram :=
  lazyInit .tsInitialized .tsInitLock .timeSeriesLock

/-- A thread that comes second to `g_init_lock` returns after it. -/
def mttEnsureInit : ToolProgram :=
  .test .initialized .skip
    (.seq
      (lock .initLock
        (.test .initialized .skip
          (.seq (optional (.init (bucketLocks ++ poolLocks)))
            (.set .initialized true))))
      (optional (.seq mttTsInit (optional mttReporterStart))))

/-! ## Reporting -/

/-- What a thread of the tool calls if it could not be marked. -/
def toolCalls : ToolProgram :=
  hookCalls mttCaptureStack

/-- A section of the time series, for callers of `mtt_ts_is_ready`. -/
def timeSeriesSection : ToolProgram :=
  .test .tsInitialized (optional (critical .timeSeriesLock)) .skip

def mttTsRecordPoint : ToolProgram :=
  timeSeriesSection

def recordPoint : ToolProgram :=
  .seq toolCalls mttTsRecordPoint

/-- Stage 0 of a scan: copy the time series into the cache. -/
def scanTimeSeries : ToolProgram :=
  .seq timeSeriesSection (optional (critical .cacheLock))

/-- Stage 1 of a scan: the stripes in order, until the snapshot is full. -/
def scanStripes : List Stripe → ToolProgram
  | [] => .skip
  | stripe :: rest =>
      .seq (critical (.bucketLock stripe)) (optional (scanStripes rest))

/-- Stage 7 is skipped when the report file cannot be opened. -/
def scanAndReportLocked : ToolProgram :=
  .test .initialized
    (.seq (critical .refreshLock)
      (.seq scanTimeSeries
        (.seq toolCalls
          (optional
            (.seq (optional (scanStripes stripes))
              (.seq (.loop (.seq (critical .stackCacheLock) toolCalls))
                (.seq (optional (lock .cacheLock timeSeriesSection))
                  toolCalls)))))))
    .skip

/-- `scan_and_report`. -/
def scanAndReport : ToolProgram :=
  lock .scanMutex scanAndReportLocked

/-- `reporter_thread_fn`. -/
def reporterThread : ToolProgram :=
  .seq recordPoint
    (.seq scanAndReport
      (.seq
        (.loop
          (.seq (.loop recordPoint)
            (optional (.seq scanAndReport toolCalls))))
        scanAndReport))

/-- `mtt_signal_thread_fn`. -/
def signalThread : ToolProgram :=
  .loop (.seq recordPoint (optional scanAndReport))

/-- The handlers of `/api/data` and `/api/leaks`; the symbols of a stack are
resolved under `cache_lock`. -/
def httpThread : ToolProgram :=
  .loop
    (.seq toolCalls
      (.alt
        (.seq timeSeriesSection (lock .cacheLock toolCalls))
        (optional (lock .cacheLock toolCalls))))

/-- `mtt_atexit_handler`. -/
def atexitHandler : ToolProgram :=
  optional (critical .cacheLock)

/-! ## The fork hook -/

/-- `mtt_fork_prepare`, the real `fork`, and in the parent
`mtt_fork_parent`. -/
def forkHook : ToolProgram :=
  .within bucketLocks .fork

/-- What the threads of a process run. -/
inductive ToolCall where
  | hook (request : Request)
  | macroApi (request : Request)
  | reporter
  | signal
  | http
  | atexit
  | fork
  deriving DecidableEq, Repr

abbrev ToolState (Thread : Type) := State Thread Mutex ToolFlag

end MemoryTraceTool.Fork
