import MemoryTraceTool.Lib.Transition

/-!
# The loop of the reporter thread

The reporter thread scans once after a second, then after each minute or as
soon as it finds `peak_updated` set, and a last time when `running` has been
cleared.  The signal thread scans on SIGUSR1; both hold `scan_mutex`.
-/

namespace MemoryTraceTool.ReporterLoop

open Transition

def mttReportIntervalSec : Nat := 60

/-- The three calls of `scan_and_report` in `reporter_thread_fn`. -/
inductive ScanKind where
  | first
  | periodic
  | final
  deriving DecidableEq, Repr

/-- Control points of `reporter_thread_fn`; `i` counts the seconds of the
inner loop. -/
inductive ReporterPc where
  | start
  | point
  | acquire (kind : ScanKind)
  | scan (kind : ScanKind)
  | heartbeat
  | test
  | rounds (i : Nat)
  | sleep (i : Nat)
  | record (i : Nat)
  | exchange (i : Nat)
  | recheck
  | ended
  deriving DecidableEq, Repr

/-- Control points of `mtt_signal_thread_fn`. -/
inductive SignalPc where
  | test
  | wait
  | record
  | loadRunning
  | acquire
  | scan
  | ended
  deriving DecidableEq, Repr

inductive Owner where
  | reporter
  | signal
  deriving DecidableEq, Repr

/-- What the reporter thread did: its steps, the seconds it slept and the time
series points it recorded; of the time since its last scan began, the seconds
slept and whether it took a raised `peak_updated`; and the scans that it began
after `running` was cleared. -/
structure History where
  steps : Nat
  slept : Nat
  points : Nat
  rested : Nat
  tookPeak : Bool
  lateScans : Nat
  deriving DecidableEq, Repr

/-- The shared flags and the mutex, and where the threads are.  `history` is
a ghost. -/
structure LoopState where
  running : Bool
  peakUpdated : Bool
  signalRunning : Bool
  scanMutex : Option Owner
  reporter : ReporterPc
  signal : SignalPc
  history : History
  deriving DecidableEq, Repr

/-- `raise` is the store of a hook that saw a new peak, `stopSignal` and
`stop` are the stores of the exit handler and of `mtt_reporter_stop`.
`delivered` tells whether `sigtimedwait` returns SIGUSR1. -/
inductive LoopLabel where
  | reporter
  | signal (delivered : Bool)
  | raise
  | stopSignal
  | stop
  deriving DecidableEq, Repr

/-- A step of the reporter thread to another point. -/
def LoopState.goto (state : LoopState) (pc : ReporterPc) : LoopState :=
  { state with
    reporter := pc
    history := { state.history with steps := state.history.steps + 1 } }

def LoopState.addSleep (state : LoopState) : LoopState :=
  { state with
    history := { state.history with
      slept := state.history.slept + 1
      rested := state.history.rested + 1 } }

def LoopState.addPoint (state : LoopState) : LoopState :=
  { state with
    history := { state.history with points := state.history.points + 1 } }

def LoopState.beginScan (state : LoopState) : LoopState :=
  { state with
    scanMutex := some .reporter
    history := { state.history with
      rested := 0
      tookPeak := false
      lateScans := state.history.lateScans +
        if state.running then 0 else 1 } }

def LoopState.takePeak (state : LoopState) : LoopState :=
  { state with
    peakUpdated := false
    history := { state.history with tookPeak := true } }

/-- Where `reporter_thread_fn` goes on after a scan. -/
def ScanKind.next : ScanKind → ReporterPc
  | .first => .test
  | .periodic => .heartbeat
  | .final => .ended

def reporterStep (state : LoopState) : Option LoopState :=
  match state.reporter with
  | .start => some (state.goto .point).addSleep
  | .point => some (state.goto (.acquire .first)).addPoint
  | .acquire kind =>
      if state.scanMutex = none then
        some (state.goto (.scan kind)).beginScan
      else none
  | .scan kind => some { state.goto kind.next with scanMutex := none }
  | .heartbeat => some (state.goto .test)
  | .test =>
      some (state.goto (if state.running then .rounds 0 else .acquire .final))
  | .rounds i =>
      some (state.goto
        (if i < mttReportIntervalSec ∧ state.running = true then .sleep i
          else .recheck))
  | .sleep i => some (state.goto (.record i)).addSleep
  | .record i => some (state.goto (.exchange i)).addPoint
  | .exchange i =>
      if state.peakUpdated then some (state.goto .recheck).takePeak
      else some (state.goto (.rounds (i + 1)))
  | .recheck =>
      some (state.goto (if state.running then .acquire .periodic else .test))
  | .ended => none

def signalStep (delivered : Bool) (state : LoopState) : Option LoopState :=
  match state.signal with
  | .test =>
      some { state with
        signal := if state.signalRunning then .wait else .ended }
  | .wait => some { state with signal := if delivered then .record else .test }
  | .record => some { state with signal := .loadRunning }
  | .loadRunning =>
      some { state with signal := if state.running then .acquire else .test }
  | .acquire =>
      if state.scanMutex = none then
        some { state with signal := .scan, scanMutex := some .signal }
      else none
  | .scan => some { state with signal := .test, scanMutex := none }
  | .ended => none

def loopNext (state : LoopState) : LoopLabel → Option LoopState
  | .reporter => reporterStep state
  | .signal delivered => signalStep delivered state
  | .raise => some { state with peakUpdated := true }
  | .stopSignal => some { state with signalRunning := false }
  | .stop => some { state with running := false }

/-- The two threads as `mtt_reporter_start` and `mtt_signal_thread_start`
leave them. -/
def LoopState.initial : LoopState :=
  { running := true
    peakUpdated := false
    signalRunning := true
    scanMutex := none
    reporter := .start
    signal := .test
    history :=
      { steps := 0
        slept := 0
        points := 0
        rested := 0
        tookPeak := false
        lateScans := 0 } }

def loopSystem : System LoopState LoopLabel where
  init := fun state => state = .initial
  next := loopNext

/-! ## What holds at each point of the reporter thread -/

/-- The number of seconds slept is within the interval, and below it only
when a raised flag was taken. -/
def History.Paced (history : History) : Prop :=
  1 ≤ history.rested ∧ history.rested ≤ mttReportIntervalSec ∧
    (history.rested < mttReportIntervalSec → history.tookPeak = true)

/-- What the history is at a point of the loop. -/
def ReporterPc.Fits (pc : ReporterPc) (running : Bool) (history : History) :
    Prop :=
  match pc with
  | .start | .point | .acquire .first => history.lateScans = 0
  | .acquire .periodic => history.lateScans = 0 ∧ history.Paced
  | .acquire .final => history.lateScans ≤ 1 ∧ running = false
  | .scan .final | .ended =>
      1 ≤ history.lateScans ∧ history.lateScans ≤ 2 ∧ running = false
  | .scan _ | .heartbeat => history.lateScans ≤ 1 ∧ history.rested = 0
  | .test =>
      history.lateScans ≤ 1 ∧ (running = true → history.rested = 0)
  | .rounds i =>
      history.lateScans = 0 ∧ history.rested = i ∧ i ≤ mttReportIntervalSec
  | .sleep i =>
      history.lateScans = 0 ∧ history.rested = i ∧ i < mttReportIntervalSec
  | .record i | .exchange i =>
      history.lateScans = 0 ∧ history.rested = i + 1 ∧
        i < mttReportIntervalSec
  | .recheck =>
      history.lateScans = 0 ∧ (running = true → history.Paced)

/-- The second was slept and its point is still to be recorded. -/
def ReporterPc.owesPoint : ReporterPc → Nat
  | .point | .record _ => 1
  | _ => 0

structure LoopInvariant (state : LoopState) : Prop where
  reporterOwns : state.scanMutex = some .reporter ↔
    ∃ kind, state.reporter = .scan kind
  signalOwns : state.scanMutex = some .signal ↔ state.signal = .scan
  points : state.history.points + state.reporter.owesPoint =
    state.history.slept
  early : state.running = true → state.history.lateScans = 0
  fits : state.reporter.Fits state.running state.history

theorem ReporterPc.Fits.stop {pc : ReporterPc} {running : Bool}
    {history : History} (fits : pc.Fits running history) :
    pc.Fits false history := by
  cases pc with
  | acquire kind =>
      cases kind with
      | first => exact fits
      | periodic => exact fits
      | final => exact ⟨fits.1, rfl⟩
  | scan kind =>
      cases kind with
      | first => exact fits
      | periodic => exact fits
      | final => exact ⟨fits.1, fits.2.1, rfl⟩
  | test => exact ⟨fits.1, by simp⟩
  | recheck => exact ⟨fits.1, by simp⟩
  | ended => exact ⟨fits.1, fits.2.1, rfl⟩
  | start => exact fits
  | point => exact fits
  | heartbeat => exact fits
  | rounds i => exact fits
  | sleep i => exact fits
  | record i => exact fits
  | exchange i => exact fits

/-- What a step of the reporter thread does, point by point. -/
inductive ReporterEffect (state : LoopState) : LoopState → Prop where
  | start : state.reporter = .start →
      ReporterEffect state (state.goto .point).addSleep
  | point : state.reporter = .point →
      ReporterEffect state (state.goto (.acquire .first)).addPoint
  | acquire (kind : ScanKind) : state.reporter = .acquire kind →
      state.scanMutex = none →
      ReporterEffect state (state.goto (.scan kind)).beginScan
  | scan (kind : ScanKind) : state.reporter = .scan kind →
      ReporterEffect state { state.goto kind.next with scanMutex := none }
  | heartbeat : state.reporter = .heartbeat →
      ReporterEffect state (state.goto .test)
  | enter : state.reporter = .test → state.running = true →
      ReporterEffect state (state.goto (.rounds 0))
  | leave : state.reporter = .test → state.running = false →
      ReporterEffect state (state.goto (.acquire .final))
  | rest (i : Nat) : state.reporter = .rounds i →
      i < mttReportIntervalSec → state.running = true →
      ReporterEffect state (state.goto (.sleep i))
  | elapsed (i : Nat) : state.reporter = .rounds i →
      (state.running = true → mttReportIntervalSec ≤ i) →
      ReporterEffect state (state.goto .recheck)
  | sleep (i : Nat) : state.reporter = .sleep i →
      ReporterEffect state (state.goto (.record i)).addSleep
  | record (i : Nat) : state.reporter = .record i →
      ReporterEffect state (state.goto (.exchange i)).addPoint
  | peak (i : Nat) : state.reporter = .exchange i →
      state.peakUpdated = true →
      ReporterEffect state (state.goto .recheck).takePeak
  | noPeak (i : Nat) : state.reporter = .exchange i →
      state.peakUpdated = false →
      ReporterEffect state (state.goto (.rounds (i + 1)))
  | scanAgain : state.reporter = .recheck → state.running = true →
      ReporterEffect state (state.goto (.acquire .periodic))
  | stopped : state.reporter = .recheck → state.running = false →
      ReporterEffect state (state.goto .test)

theorem reporterStep_effect {state target : LoopState}
    (taken : reporterStep state = some target) :
    ReporterEffect state target := by
  cases pc : state.reporter with
  | start =>
      simp only [reporterStep, pc, Option.some.injEq] at taken
      exact taken ▸ .start pc
  | point =>
      simp only [reporterStep, pc, Option.some.injEq] at taken
      exact taken ▸ .point pc
  | acquire kind =>
      simp only [reporterStep, pc, Option.ite_none_right_eq_some,
        Option.some.injEq] at taken
      exact taken.2 ▸ .acquire kind pc taken.1
  | scan kind =>
      simp only [reporterStep, pc, Option.some.injEq] at taken
      exact taken ▸ .scan kind pc
  | heartbeat =>
      simp only [reporterStep, pc, Option.some.injEq] at taken
      exact taken ▸ .heartbeat pc
  | test =>
      cases running : state.running with
      | true =>
          simp only [reporterStep, pc, running, if_true,
            Option.some.injEq] at taken
          exact taken ▸ .enter pc running
      | false =>
          simp only [reporterStep, pc, running, Bool.false_eq_true,
            if_false, Option.some.injEq] at taken
          exact taken ▸ .leave pc running
  | rounds i =>
      by_cases rests : i < mttReportIntervalSec ∧ state.running = true
      · simp only [reporterStep, pc, if_pos rests,
          Option.some.injEq] at taken
        exact taken ▸ .rest i pc rests.1 rests.2
      · simp only [reporterStep, pc, if_neg rests,
          Option.some.injEq] at taken
        refine taken ▸ .elapsed i pc fun running => ?_
        exact Nat.le_of_not_lt fun more => rests ⟨more, running⟩
  | sleep i =>
      simp only [reporterStep, pc, Option.some.injEq] at taken
      exact taken ▸ .sleep i pc
  | record i =>
      simp only [reporterStep, pc, Option.some.injEq] at taken
      exact taken ▸ .record i pc
  | exchange i =>
      cases peak : state.peakUpdated with
      | true =>
          simp only [reporterStep, pc, peak, if_true,
            Option.some.injEq] at taken
          exact taken ▸ .peak i pc peak
      | false =>
          simp only [reporterStep, pc, peak, Bool.false_eq_true,
            if_false, Option.some.injEq] at taken
          exact taken ▸ .noPeak i pc peak
  | recheck =>
      cases running : state.running with
      | true =>
          simp only [reporterStep, pc, running, if_true,
            Option.some.injEq] at taken
          exact taken ▸ .scanAgain pc running
      | false =>
          simp only [reporterStep, pc, running, Bool.false_eq_true,
            if_false, Option.some.injEq] at taken
          exact taken ▸ .stopped pc running
  | ended => simp [reporterStep, pc] at taken

/-- A step of the signal thread only moves it and the mutex. -/
structure SignalEffect (state target : LoopState) : Prop where
  running : target.running = state.running
  peakUpdated : target.peakUpdated = state.peakUpdated
  reporter : target.reporter = state.reporter
  history : target.history = state.history
  mutex : target.scanMutex = state.scanMutex ∧
      target.signal ≠ .scan ∧ state.signal ≠ .scan ∨
    target.scanMutex = some .signal ∧ target.signal = .scan ∧
      state.scanMutex = none ∨
    target.scanMutex = none ∧ target.signal ≠ .scan ∧ state.signal = .scan

theorem signalStep_effect {state target : LoopState} {delivered : Bool}
    (taken : signalStep delivered state = some target) :
    SignalEffect state target := by
  cases pc : state.signal with
  | acquire =>
      simp only [signalStep, pc, Option.ite_none_right_eq_some,
        Option.some.injEq] at taken
      obtain ⟨free, rfl⟩ := taken
      exact ⟨rfl, rfl, rfl, rfl, .inr (.inl ⟨rfl, rfl, free⟩)⟩
  | scan =>
      simp only [signalStep, pc, Option.some.injEq] at taken
      subst taken
      exact ⟨rfl, rfl, rfl, rfl, .inr (.inr ⟨rfl, by simp, pc⟩)⟩
  | ended => simp [signalStep, pc] at taken
  | test =>
      simp only [signalStep, pc, Option.some.injEq] at taken
      subst taken
      refine ⟨rfl, rfl, rfl, rfl, .inl ⟨rfl, ?_, by simp [pc]⟩⟩
      dsimp only
      split <;> simp
  | wait =>
      simp only [signalStep, pc, Option.some.injEq] at taken
      subst taken
      refine ⟨rfl, rfl, rfl, rfl, .inl ⟨rfl, ?_, by simp [pc]⟩⟩
      dsimp only
      split <;> simp
  | record =>
      simp only [signalStep, pc, Option.some.injEq] at taken
      subst taken
      exact ⟨rfl, rfl, rfl, rfl, .inl ⟨rfl, by simp, by simp [pc]⟩⟩
  | loadRunning =>
      simp only [signalStep, pc, Option.some.injEq] at taken
      subst taken
      refine ⟨rfl, rfl, rfl, rfl, .inl ⟨rfl, ?_, by simp [pc]⟩⟩
      dsimp only
      split <;> simp

/-! ## The invariant -/

theorem LoopInvariant.afterSignal {state target : LoopState}
    (holds : LoopInvariant state) (effect : SignalEffect state target) :
    LoopInvariant target := by
  have owns := holds.reporterOwns
  have signalOwns := holds.signalOwns
  refine ⟨?_, ?_, ?_, ?_, ?_⟩
  · rw [effect.reporter, ← owns]
    rcases effect.mutex with ⟨same, -⟩ | ⟨taken, -, free⟩ | ⟨free, -, scan⟩
    · rw [same]
    · simp [taken, free]
    · simp [free, signalOwns.mpr scan]
  · rcases effect.mutex with ⟨same, after, before⟩ | ⟨taken, scan, -⟩ |
      ⟨free, after, -⟩
    · rw [same, signalOwns]
      exact iff_of_false before after
    · exact iff_of_true taken scan
    · simp [free, after]
  · rw [effect.history, effect.reporter]
    exact holds.points
  · rw [effect.running, effect.history]
    exact holds.early
  · rw [effect.reporter, effect.running, effect.history]
    exact holds.fits

/-- Steps outside the scans leave the mutex and the number of late scans. -/
theorem LoopInvariant.move {state target : LoopState}
    (holds : LoopInvariant state)
    (before : ∀ kind, state.reporter ≠ .scan kind)
    (after : ∀ kind, target.reporter ≠ .scan kind)
    (mutex : target.scanMutex = state.scanMutex)
    (signal : target.signal = state.signal)
    (running : target.running = state.running)
    (late : target.history.lateScans = state.history.lateScans)
    (points : target.history.points + target.reporter.owesPoint =
      target.history.slept)
    (fits : target.reporter.Fits target.running target.history) :
    LoopInvariant target := by
  refine ⟨?_, ?_, points, ?_, fits⟩
  · rw [mutex, holds.reporterOwns]
    exact iff_of_false (fun ⟨kind, there⟩ => before kind there)
      (fun ⟨kind, there⟩ => after kind there)
  · rw [mutex, signal]
    exact holds.signalOwns
  · rw [running, late]
    exact holds.early

/-- A scan that begins without an earlier late one leaves at most one. -/
theorem begun_of_noneLate {state : LoopState} {kind : ScanKind}
    (none : state.history.lateScans = 0) :
    (state.goto (.scan kind)).beginScan.history.lateScans ≤ 1 ∧
      (state.goto (.scan kind)).beginScan.history.rested = 0 := by
  refine ⟨?_, rfl⟩
  simp only [LoopState.beginScan, LoopState.goto, none]
  split <;> omega

theorem LoopInvariant.afterReporter {state target : LoopState}
    (holds : LoopInvariant state) (effect : ReporterEffect state target) :
    LoopInvariant target := by
  have points := holds.points
  have fits := holds.fits
  cases effect with
  | start pc =>
      rw [pc] at points fits
      refine holds.move (by simp [pc]) nofun rfl rfl rfl rfl ?_ fits
      exact congrArg Nat.succ points
  | point pc =>
      rw [pc] at points fits
      exact holds.move (by simp [pc]) nofun rfl rfl rfl rfl points fits
  | acquire kind pc free =>
      rw [pc] at points fits
      have silent : state.signal ≠ .scan := by
        intro scan
        simp [holds.signalOwns.mpr scan] at free
      refine ⟨iff_of_true rfl ⟨kind, rfl⟩, iff_of_false nofun silent, points,
        ?_, ?_⟩
      · intro running
        have running : state.running = true := running
        simp [LoopState.beginScan, LoopState.goto, running,
          holds.early running]
      · cases kind with
        | first => exact begun_of_noneLate fits
        | periodic => exact begun_of_noneLate fits.1
        | final =>
            have begun :
                (state.goto (.scan .final)).beginScan.history.lateScans =
                  state.history.lateScans + 1 := by
              simp [LoopState.beginScan, LoopState.goto, fits.2]
            have few := fits.1
            refine ⟨?_, ?_, fits.2⟩ <;> omega
  | scan kind pc =>
      rw [pc] at points fits
      have owned := holds.reporterOwns.mpr ⟨kind, pc⟩
      have silent : state.signal ≠ .scan := by
        intro scan
        simp [holds.signalOwns.mpr scan] at owned
      refine ⟨iff_of_false nofun ?_, iff_of_false nofun silent, ?_,
        holds.early, ?_⟩
      · rintro ⟨other, there⟩
        cases kind <;> contradiction
      · cases kind <;> exact points
      · cases kind with
        | first => exact ⟨fits.1, fun _ => fits.2⟩
        | periodic => exact fits
        | final => exact fits
  | heartbeat pc =>
      rw [pc] at points fits
      exact holds.move (by simp [pc]) nofun rfl rfl rfl rfl points
        ⟨fits.1, fun _ => fits.2⟩
  | enter pc running =>
      rw [pc] at points fits
      exact holds.move (by simp [pc]) nofun rfl rfl rfl rfl points
        ⟨holds.early running, fits.2 running, Nat.zero_le _⟩
  | leave pc stopped =>
      rw [pc] at points fits
      exact holds.move (by simp [pc]) nofun rfl rfl rfl rfl points
        ⟨fits.1, stopped⟩
  | rest i pc more running =>
      rw [pc] at points fits
      exact holds.move (by simp [pc]) nofun rfl rfl rfl rfl points
        ⟨fits.1, fits.2.1, more⟩
  | elapsed i pc past =>
      rw [pc] at points fits
      refine holds.move (by simp [pc]) nofun rfl rfl rfl rfl points
        ⟨fits.1, fun running => ?_⟩
      have full : state.history.rested = mttReportIntervalSec := by
        have reached := past running
        have inside := fits.2.2
        rw [fits.2.1]
        omega
      refine ⟨?_, Nat.le_of_eq full, ?_⟩
      · have positive : 1 ≤ mttReportIntervalSec := by decide
        exact Nat.le_trans positive (Nat.le_of_eq full.symm)
      · intro early
        exact absurd full (Nat.ne_of_lt early)
  | sleep i pc =>
      rw [pc] at points fits
      refine holds.move (by simp [pc]) nofun rfl rfl rfl rfl ?_
        ⟨fits.1, congrArg Nat.succ fits.2.1, fits.2.2⟩
      exact congrArg Nat.succ points
  | record i pc =>
      rw [pc] at points fits
      exact holds.move (by simp [pc]) nofun rfl rfl rfl rfl points fits
  | peak i pc raised =>
      rw [pc] at points fits
      refine holds.move (by simp [pc]) nofun rfl rfl rfl rfl points
        ⟨fits.1, fun _ => ⟨?_, ?_, fun _ => rfl⟩⟩
      · exact Nat.le_trans (Nat.succ_le_succ (Nat.zero_le i))
          (Nat.le_of_eq fits.2.1.symm)
      · exact Nat.le_trans (Nat.le_of_eq fits.2.1) fits.2.2
  | noPeak i pc quiet =>
      rw [pc] at points fits
      exact holds.move (by simp [pc]) nofun rfl rfl rfl rfl points
        ⟨fits.1, fits.2.1, fits.2.2⟩
  | scanAgain pc running =>
      rw [pc] at points fits
      exact holds.move (by simp [pc]) nofun rfl rfl rfl rfl points
        ⟨fits.1, fits.2 running⟩
  | stopped pc stopped =>
      rw [pc] at points fits
      refine holds.move (by simp [pc]) nofun rfl rfl rfl rfl points
        ⟨Nat.le_trans (Nat.le_of_eq fits.1) (Nat.zero_le 1),
          fun running => ?_⟩
      exact absurd (stopped.symm.trans running) Bool.false_ne_true

theorem LoopInvariant.step {state target : LoopState} {label : LoopLabel}
    (holds : LoopInvariant state)
    (taken : loopNext state label = some target) :
    LoopInvariant target := by
  cases label with
  | reporter => exact holds.afterReporter (reporterStep_effect taken)
  | signal delivered => exact holds.afterSignal (signalStep_effect taken)
  | raise =>
      cases taken
      exact ⟨holds.reporterOwns, holds.signalOwns, holds.points, holds.early,
        holds.fits⟩
  | stopSignal =>
      cases taken
      exact ⟨holds.reporterOwns, holds.signalOwns, holds.points, holds.early,
        holds.fits⟩
  | stop =>
      cases taken
      exact ⟨holds.reporterOwns, holds.signalOwns, holds.points, nofun,
        holds.fits.stop⟩

theorem loopInvariant_reachable {state : LoopState}
    (reachable : loopSystem.Reachable state) : LoopInvariant state := by
  refine reachable.invariant LoopInvariant ?_ ?_
  · intro initial start
    subst start
    refine ⟨?_, ?_, rfl, fun _ => rfl, rfl⟩ <;>
      simp [LoopState.initial]
  · intro before label after holds _ taken
    exact holds.step taken

/-- A reporter thread that has not ended can go on, if need be after the next
step of the signal thread. -/
def CanGoOn (state : LoopState) : Prop :=
  (reporterStep state).isSome = true ∨
    ∃ freed, signalStep false state = some freed ∧
      (reporterStep freed).isSome = true

theorem LoopInvariant.canGoOn {state : LoopState}
    (holds : LoopInvariant state) (alive : state.reporter ≠ .ended) :
    CanGoOn state := by
  cases pc : state.reporter with
  | acquire kind =>
      cases mutex : state.scanMutex with
      | none => exact .inl (by simp [reporterStep, pc, mutex])
      | some owner =>
          cases owner with
          | reporter =>
              obtain ⟨other, scan⟩ := holds.reporterOwns.mp mutex
              rw [pc] at scan
              contradiction
          | signal =>
              have scan := holds.signalOwns.mp mutex
              refine .inr ⟨_, by rw [signalStep, scan], ?_⟩
              simp [reporterStep, pc]
  | exchange i =>
      refine .inl ?_
      simp only [reporterStep, pc]
      split <;> rfl
  | ended => exact absurd pc alive
  | start | point | heartbeat | test | recheck =>
      exact .inl (by simp [reporterStep, pc])
  | scan kind => exact .inl (by simp [reporterStep, pc])
  | rounds i => exact .inl (by simp [reporterStep, pc])
  | sleep i => exact .inl (by simp [reporterStep, pc])
  | record i => exact .inl (by simp [reporterStep, pc])

/-! ## A new peak is reported -/

def ReporterPc.acquires : ReporterPc → Bool
  | .acquire _ => true
  | _ => false

/-- The step takes `scan_mutex` for a scan of the reporter thread. -/
def BeginsScan (state : LoopState) (label : LoopLabel) : Prop :=
  label = .reporter ∧ state.reporter.acquires = true

instance (state : LoopState) (label : LoopLabel) :
    Decidable (BeginsScan state label) :=
  inferInstanceAs (Decidable (_ ∧ _))

/-- The steps to the next scan at most, when a raised flag is found. -/
def ReporterPc.toScan (running : Bool) : ReporterPc → Nat
  | .acquire _ | .ended => 0
  | .point => 1
  | .start | .recheck => 2
  | .exchange _ => 3
  | .record _ => 4
  | .sleep _ => 5
  | .rounds _ => 6
  | .test => if running then 7 else 1
  | .heartbeat => 8
  | .scan _ => 9

/-- The seconds of sleep among these steps. -/
def ReporterPc.sleepsToScan (running : Bool) : ReporterPc → Nat
  | .start | .sleep _ | .rounds _ | .heartbeat | .scan _ => 1
  | .test => if running then 1 else 0
  | .acquire _ | .point | .recheck | .exchange _ | .record _ | .ended => 0

/-- A scan is still to come: the final one was not begun, and the loop is past
its look at the flag or will find it raised. -/
def LoopState.OwesScan (state : LoopState) : Prop :=
  match state.reporter with
  | .acquire _ | .recheck => True
  | .test => state.peakUpdated = true ∨ state.running = false
  | .scan .final | .ended => False
  | _ => state.peakUpdated = true

/-- A scan is owed, and within the bounds on the steps and on the sleep. -/
structure Answering (bound sleepBound : Nat) (state : LoopState) : Prop where
  owes : state.OwesScan
  steps : state.history.steps + state.reporter.toScan state.running ≤ bound
  slept : state.history.slept +
    state.reporter.sleepsToScan state.running ≤ sleepBound

theorem toScan_test_le (running : Bool) :
    ReporterPc.test.toScan running ≤ 7 := by
  cases running <;> decide

theorem sleepsToScan_test_le (running : Bool) :
    ReporterPc.test.sleepsToScan running ≤ 1 := by
  cases running <;> decide

theorem toScan_le (running : Bool) (pc : ReporterPc) :
    pc.toScan running ≤ 9 := by
  cases pc with
  | test => exact Nat.le_trans (toScan_test_le running) (by decide)
  | start | point | heartbeat | recheck | ended =>
      exact Nat.le_of_ble_eq_true rfl
  | acquire kind => exact Nat.zero_le 9
  | scan kind => exact Nat.le_refl 9
  | rounds i | sleep i | record i | exchange i =>
      exact Nat.le_of_ble_eq_true rfl

theorem sleepsToScan_le (running : Bool) (pc : ReporterPc) :
    pc.sleepsToScan running ≤ 1 := by
  cases pc with
  | test => exact sleepsToScan_test_le running
  | start | point | heartbeat | recheck | ended =>
      exact Nat.le_of_ble_eq_true rfl
  | acquire kind => exact Nat.zero_le 1
  | scan kind => exact Nat.le_refl 1
  | rounds i | sleep i | record i | exchange i =>
      exact Nat.le_of_ble_eq_true rfl

theorem Answering.move {bound sleepBound : Nat} {state target : LoopState}
    (answering : Answering bound sleepBound state)
    (owes : target.OwesScan)
    (steps : target.history.steps + target.reporter.toScan target.running ≤
      state.history.steps + state.reporter.toScan state.running)
    (slept : target.history.slept +
        target.reporter.sleepsToScan target.running ≤
      state.history.slept + state.reporter.sleepsToScan state.running) :
    Answering bound sleepBound target :=
  ⟨owes, Nat.le_trans steps answering.steps,
    Nat.le_trans slept answering.slept⟩

theorem Answering.afterReporter {bound sleepBound : Nat}
    {state target : LoopState} (answering : Answering bound sleepBound state)
    (waits : ∀ kind, state.reporter ≠ .acquire kind)
    (effect : ReporterEffect state target) :
    Answering bound sleepBound target := by
  have owes := answering.owes
  rw [LoopState.OwesScan] at owes
  cases effect with
  | start pc =>
      rw [pc] at owes
      refine answering.move owes ?_ ?_ <;> rw [pc]
      · exact Nat.le_refl (state.history.steps + 2)
      · exact Nat.le_refl (state.history.slept + 1)
  | point pc =>
      refine answering.move trivial ?_ ?_ <;> rw [pc]
      · exact Nat.le_refl (state.history.steps + 1)
      · exact Nat.le_refl state.history.slept
  | acquire kind pc free => exact absurd pc (waits kind)
  | scan kind pc =>
      rw [pc] at owes
      cases kind with
      | first =>
          have steps := toScan_test_le state.running
          have sleeps := sleepsToScan_test_le state.running
          refine answering.move (.inl owes) ?_ ?_ <;> rw [pc]
          · change state.history.steps + 1 +
              ReporterPc.test.toScan state.running ≤ state.history.steps + 9
            omega
          · exact Nat.add_le_add_left sleeps state.history.slept
      | periodic =>
          refine answering.move owes ?_ ?_ <;> rw [pc]
          · exact Nat.le_refl (state.history.steps + 9)
          · exact Nat.le_refl (state.history.slept + 1)
      | final => contradiction
  | heartbeat pc =>
      rw [pc] at owes
      have steps := toScan_test_le state.running
      have sleeps := sleepsToScan_test_le state.running
      refine answering.move (.inl owes) ?_ ?_ <;> rw [pc]
      · change state.history.steps + 1 +
          ReporterPc.test.toScan state.running ≤ state.history.steps + 8
        omega
      · exact Nat.add_le_add_left sleeps state.history.slept
  | enter pc running =>
      rw [pc] at owes
      have raised : state.peakUpdated = true := by
        simpa [running] using owes
      refine answering.move raised ?_ ?_ <;> rw [pc, running]
      · exact Nat.le_refl (state.history.steps + 7)
      · exact Nat.le_refl (state.history.slept + 1)
  | leave pc stopped =>
      refine answering.move trivial ?_ ?_ <;> rw [pc, stopped]
      · exact Nat.le_refl (state.history.steps + 1)
      · exact Nat.le_refl state.history.slept
  | rest i pc more running =>
      rw [pc] at owes
      refine answering.move owes ?_ ?_ <;> rw [pc]
      · exact Nat.le_refl (state.history.steps + 6)
      · exact Nat.le_refl (state.history.slept + 1)
  | elapsed i pc past =>
      refine answering.move trivial ?_ ?_ <;> rw [pc]
      · exact Nat.add_le_add_left (by decide : 1 + 2 ≤ 6) _
      · exact Nat.le_succ state.history.slept
  | sleep i pc =>
      rw [pc] at owes
      refine answering.move owes ?_ ?_ <;> rw [pc]
      · exact Nat.le_refl (state.history.steps + 5)
      · exact Nat.le_refl (state.history.slept + 1)
  | record i pc =>
      rw [pc] at owes
      refine answering.move owes ?_ ?_ <;> rw [pc]
      · exact Nat.le_refl (state.history.steps + 4)
      · exact Nat.le_refl state.history.slept
  | peak i pc raised =>
      refine answering.move trivial ?_ ?_ <;> rw [pc]
      · exact Nat.le_refl (state.history.steps + 3)
      · exact Nat.le_refl state.history.slept
  | noPeak i pc quiet =>
      rw [pc] at owes
      exact absurd (quiet.symm.trans owes) Bool.false_ne_true
  | scanAgain pc running =>
      refine answering.move trivial ?_ ?_ <;> rw [pc]
      · exact Nat.le_succ (state.history.steps + 1)
      · exact Nat.le_refl state.history.slept
  | stopped pc stopped =>
      refine answering.move (.inr stopped) ?_ ?_ <;> rw [pc]
      · change state.history.steps + 1 +
          ReporterPc.test.toScan state.running ≤ state.history.steps + 2
        rw [stopped]
        exact Nat.le_refl (state.history.steps + 2)
      · change state.history.slept +
          ReporterPc.test.sleepsToScan state.running ≤ state.history.slept
        rw [stopped]
        exact Nat.le_refl state.history.slept

theorem toScan_stop_le (running : Bool) (pc : ReporterPc) :
    pc.toScan false ≤ pc.toScan running ∧
      pc.sleepsToScan false ≤ pc.sleepsToScan running := by
  cases pc with
  | test => cases running <;> decide
  | start | point | heartbeat | recheck | ended =>
      exact ⟨Nat.le_refl _, Nat.le_refl _⟩
  | acquire kind => exact ⟨Nat.le_refl _, Nat.le_refl _⟩
  | scan kind => exact ⟨Nat.le_refl _, Nat.le_refl _⟩
  | rounds i | sleep i | record i | exchange i =>
      exact ⟨Nat.le_refl _, Nat.le_refl _⟩

theorem LoopState.OwesScan.raise {state : LoopState}
    (owes : state.OwesScan) :
    LoopState.OwesScan { state with peakUpdated := true } := by
  rw [LoopState.OwesScan] at owes ⊢
  cases pc : state.reporter with
  | acquire kind => trivial
  | recheck => trivial
  | test => exact .inl rfl
  | scan kind =>
      rw [pc] at owes
      cases kind with
      | first | periodic => rfl
      | final => exact owes
  | ended =>
      rw [pc] at owes
      exact owes
  | start | point | heartbeat => rfl
  | rounds i | sleep i | record i | exchange i => rfl

theorem LoopState.OwesScan.stop {state : LoopState}
    (owes : state.OwesScan) :
    LoopState.OwesScan { state with running := false } := by
  rw [LoopState.OwesScan] at owes ⊢
  cases pc : state.reporter with
  | test => exact .inr rfl
  | scan kind =>
      rw [pc] at owes
      cases kind with
      | first | periodic => exact owes
      | final => exact owes
  | acquire kind => trivial
  | start | point | heartbeat | recheck | ended =>
      rw [pc] at owes
      exact owes
  | rounds i | sleep i | record i | exchange i =>
      rw [pc] at owes
      exact owes

theorem Answering.step {bound sleepBound : Nat} {state target : LoopState}
    {label : LoopLabel} (answering : Answering bound sleepBound state)
    (waits : ¬ BeginsScan state label)
    (taken : loopNext state label = some target) :
    Answering bound sleepBound target := by
  cases label with
  | reporter =>
      refine answering.afterReporter ?_ (reporterStep_effect taken)
      intro kind there
      exact waits ⟨rfl, by rw [there]; rfl⟩
  | signal delivered =>
      have effect := signalStep_effect taken
      obtain ⟨owes, steps, slept⟩ := answering
      rw [LoopState.OwesScan, ← effect.reporter, ← effect.peakUpdated,
        ← effect.running] at owes
      rw [← effect.history, ← effect.reporter, ← effect.running]
        at steps slept
      exact ⟨owes, steps, slept⟩
  | raise =>
      cases taken
      exact ⟨answering.owes.raise, answering.steps, answering.slept⟩
  | stopSignal =>
      cases taken
      exact ⟨answering.owes, answering.steps, answering.slept⟩
  | stop =>
      cases taken
      have less := toScan_stop_le state.running state.reporter
      exact answering.move answering.owes.stop
        (Nat.add_le_add_left less.1 _) (Nat.add_le_add_left less.2 _)

theorem LoopState.owesScan_of_raised {state : LoopState}
    (raised : state.peakUpdated = true)
    (unfinished : state.reporter ≠ .scan .final)
    (alive : state.reporter ≠ .ended) : state.OwesScan := by
  rw [LoopState.OwesScan]
  cases pc : state.reporter with
  | test => exact .inl raised
  | scan kind =>
      cases kind with
      | first | periodic => exact raised
      | final => exact absurd pc unfinished
  | ended => exact absurd pc alive
  | acquire kind => trivial
  | recheck => trivial
  | start | point | heartbeat => exact raised
  | rounds i | sleep i | record i | exchange i => exact raised

theorem LoopState.OwesScan.alive {state : LoopState}
    (owes : state.OwesScan) : state.reporter ≠ .ended := by
  intro ended
  rw [LoopState.OwesScan, ended] at owes
  exact owes

/-- A peak raised before the final scan has begun is answered: until the next
scan begins, the reporter thread takes at most nine steps and finishes at most
one second of sleep, and nothing but a scan in progress holds it up. -/
theorem reporter_answers_peak {state target : LoopState}
    (reachable : loopSystem.Reachable state)
    (raised : state.peakUpdated = true)
    (unfinished : state.reporter ≠ .scan .final)
    (alive : state.reporter ≠ .ended)
    (steps : loopSystem.StepsBy
      (fun passed label => ¬ BeginsScan passed label) state target) :
    target.history.steps ≤ state.history.steps + 9 ∧
      target.history.slept ≤ state.history.slept + 1 ∧
      CanGoOn target := by
  have start : Answering (state.history.steps + 9)
      (state.history.slept + 1) state :=
    ⟨LoopState.owesScan_of_raised raised unfinished alive,
      Nat.add_le_add_left (toScan_le _ _) _,
      Nat.add_le_add_left (sleepsToScan_le _ _) _⟩
  have answering := steps.preserves (Answering _ _)
    (fun _ _ _ answering waits taken => answering.step waits taken) start
  have later : loopSystem.Reachable target :=
    reachable.extend (steps.mono fun _ _ _ => trivial)
  exact ⟨Nat.le_trans (Nat.le_add_right _ _) answering.steps,
    Nat.le_trans (Nat.le_add_right _ _) answering.slept,
    (loopInvariant_reachable later).canGoOn answering.owes.alive⟩

/-! ## The way to the end -/

/-- The steps to the end once `running` is cleared. -/
def ReporterPc.toEnd : ReporterPc → Nat
  | .ended => 0
  | .scan .final => 1
  | .acquire .final => 2
  | .test => 3
  | .scan .first | .heartbeat | .recheck => 4
  | .scan .periodic | .acquire .first | .rounds _ => 5
  | .acquire .periodic | .point | .exchange _ => 6
  | .start | .record _ => 7
  | .sleep _ => 8

/-- The seconds of sleep among these steps. -/
def ReporterPc.sleepsToEnd : ReporterPc → Nat
  | .start | .sleep _ => 1
  | _ => 0

theorem toEnd_le (pc : ReporterPc) : pc.toEnd ≤ 8 := by
  cases pc with
  | acquire kind => cases kind <;> decide
  | scan kind => cases kind <;> decide
  | start | point | heartbeat | test | recheck | ended =>
      exact Nat.le_of_ble_eq_true rfl
  | rounds i | sleep i | record i | exchange i =>
      exact Nat.le_of_ble_eq_true rfl

theorem sleepsToEnd_le (pc : ReporterPc) : pc.sleepsToEnd ≤ 1 := by
  cases pc with
  | start | sleep i => exact Nat.le_refl 1
  | _ => exact Nat.zero_le 1

structure Stopping (bound sleepBound : Nat) (state : LoopState) : Prop where
  stopped : state.running = false
  steps : state.history.steps + state.reporter.toEnd ≤ bound
  slept : state.history.slept + state.reporter.sleepsToEnd ≤ sleepBound

theorem ReporterEffect.closer {state target : LoopState}
    (stopped : state.running = false)
    (effect : ReporterEffect state target) :
    target.history.steps + target.reporter.toEnd ≤
        state.history.steps + state.reporter.toEnd ∧
      target.history.slept + target.reporter.sleepsToEnd ≤
        state.history.slept + state.reporter.sleepsToEnd ∧
      target.running = false := by
  cases effect with
  | start pc =>
      refine ⟨?_, ?_, stopped⟩ <;> rw [pc]
      · exact Nat.le_refl (state.history.steps + 7)
      · exact Nat.le_refl (state.history.slept + 1)
  | point pc =>
      refine ⟨?_, ?_, stopped⟩ <;> rw [pc]
      · exact Nat.le_refl (state.history.steps + 6)
      · exact Nat.le_refl state.history.slept
  | acquire kind pc free =>
      refine ⟨?_, ?_, stopped⟩ <;> rw [pc]
      · cases kind with
        | first => exact Nat.le_refl (state.history.steps + 5)
        | periodic => exact Nat.le_refl (state.history.steps + 6)
        | final => exact Nat.le_refl (state.history.steps + 2)
      · exact Nat.le_refl state.history.slept
  | scan kind pc =>
      refine ⟨?_, ?_, stopped⟩ <;> rw [pc]
      · cases kind with
        | first => exact Nat.le_refl (state.history.steps + 4)
        | periodic => exact Nat.le_refl (state.history.steps + 5)
        | final => exact Nat.le_refl (state.history.steps + 1)
      · cases kind <;> exact Nat.le_refl state.history.slept
  | heartbeat pc =>
      refine ⟨?_, ?_, stopped⟩ <;> rw [pc]
      · exact Nat.le_refl (state.history.steps + 4)
      · exact Nat.le_refl state.history.slept
  | enter pc running =>
      exact absurd (stopped.symm.trans running) Bool.false_ne_true
  | leave pc idle =>
      refine ⟨?_, ?_, stopped⟩ <;> rw [pc]
      · exact Nat.le_refl (state.history.steps + 3)
      · exact Nat.le_refl state.history.slept
  | rest i pc more running =>
      exact absurd (stopped.symm.trans running) Bool.false_ne_true
  | elapsed i pc past =>
      refine ⟨?_, ?_, stopped⟩ <;> rw [pc]
      · exact Nat.le_refl (state.history.steps + 5)
      · exact Nat.le_refl state.history.slept
  | sleep i pc =>
      refine ⟨?_, ?_, stopped⟩ <;> rw [pc]
      · exact Nat.le_refl (state.history.steps + 8)
      · exact Nat.le_refl (state.history.slept + 1)
  | record i pc =>
      refine ⟨?_, ?_, stopped⟩ <;> rw [pc]
      · exact Nat.le_refl (state.history.steps + 7)
      · exact Nat.le_refl state.history.slept
  | peak i pc raised =>
      refine ⟨?_, ?_, stopped⟩ <;> rw [pc]
      · exact Nat.le_succ (state.history.steps + 5)
      · exact Nat.le_refl state.history.slept
  | noPeak i pc quiet =>
      refine ⟨?_, ?_, stopped⟩ <;> rw [pc]
      · exact Nat.le_refl (state.history.steps + 6)
      · exact Nat.le_refl state.history.slept
  | scanAgain pc running =>
      exact absurd (stopped.symm.trans running) Bool.false_ne_true
  | stopped pc idle =>
      refine ⟨?_, ?_, stopped⟩ <;> rw [pc]
      · exact Nat.le_refl (state.history.steps + 4)
      · exact Nat.le_refl state.history.slept

theorem Stopping.step {bound sleepBound : Nat} {state target : LoopState}
    {label : LoopLabel} (stopping : Stopping bound sleepBound state)
    (taken : loopNext state label = some target) :
    Stopping bound sleepBound target := by
  cases label with
  | reporter =>
      obtain ⟨steps, slept, stopped⟩ :=
        (reporterStep_effect taken).closer stopping.stopped
      exact ⟨stopped, Nat.le_trans steps stopping.steps,
        Nat.le_trans slept stopping.slept⟩
  | signal delivered =>
      have effect := signalStep_effect taken
      refine ⟨effect.running.trans stopping.stopped, ?_, ?_⟩
      · rw [effect.history, effect.reporter]
        exact stopping.steps
      · rw [effect.history, effect.reporter]
        exact stopping.slept
  | raise =>
      cases taken
      exact ⟨stopping.stopped, stopping.steps, stopping.slept⟩
  | stopSignal =>
      cases taken
      exact ⟨stopping.stopped, stopping.steps, stopping.slept⟩
  | stop =>
      cases taken
      exact ⟨rfl, stopping.steps, stopping.slept⟩

/-- Once `running` is cleared the reporter thread takes at most eight more
steps and finishes at most one second of sleep, held up by nothing but a scan
in progress; when it ends, one or two of its scans began after the clearing. -/
theorem reporter_stops {state target : LoopState}
    (reachable : loopSystem.Reachable state)
    (stopped : state.running = false)
    (steps : loopSystem.StepsBy (fun _ _ => True) state target) :
    target.history.steps ≤ state.history.steps + 8 ∧
      target.history.slept ≤ state.history.slept + 1 ∧
      (target.reporter ≠ .ended → CanGoOn target) ∧
      (target.reporter = .ended →
        1 ≤ target.history.lateScans ∧ target.history.lateScans ≤ 2) := by
  have start : Stopping (state.history.steps + 8) (state.history.slept + 1)
      state :=
    ⟨stopped, Nat.add_le_add_left (toEnd_le _) _,
      Nat.add_le_add_left (sleepsToEnd_le _) _⟩
  have stopping := steps.preserves (Stopping _ _)
    (fun _ _ _ stopping _ taken => stopping.step taken) start
  have holds := loopInvariant_reachable (reachable.extend steps)
  refine ⟨Nat.le_trans (Nat.le_add_right _ _) stopping.steps,
    Nat.le_trans (Nat.le_add_right _ _) stopping.slept, holds.canGoOn, ?_⟩
  intro ended
  have fits := holds.fits
  rw [ended] at fits
  exact ⟨fits.1, fits.2.1⟩

/-- The two threads never scan together; a periodic scan comes one to sixty
seconds of sleep after the last scan began, before the sixtieth only for a new
peak; and each second of sleep is one point of the time series. -/
theorem reporter_paces {state : LoopState}
    (reachable : loopSystem.Reachable state) :
    (∀ kind, state.reporter = .scan kind → state.signal ≠ .scan) ∧
      (state.reporter = .acquire .periodic → state.history.Paced) ∧
      state.history.points + state.reporter.owesPoint =
        state.history.slept := by
  have holds := loopInvariant_reachable reachable
  refine ⟨?_, ?_, holds.points⟩
  · intro kind scan signal
    have owned := holds.reporterOwns.mpr ⟨kind, scan⟩
    simp [holds.signalOwns.mpr signal] at owned
  · intro pc
    have fits := holds.fits
    rw [pc] at fits
    exact fits.2

/-! ## A peak during a scan -/

/-- The reporter thread is in its first scan, and a peak was raised. -/
def raisedState : LoopState :=
  { LoopState.initial with
    peakUpdated := true
    scanMutex := some .reporter
    reporter := .scan .first
    history :=
      { steps := 3
        slept := 1
        points := 1
        rested := 0
        tookPeak := false
        lateScans := 0 } }

/-- It comes for its second scan while the signal thread scans. -/
def waitingState : LoopState :=
  { LoopState.initial with
    scanMutex := some .signal
    reporter := .acquire .periodic
    signal := .scan
    history :=
      { steps := 10
        slept := 2
        points := 2
        rested := 1
        tookPeak := true
        lateScans := 0 } }

theorem raisedState_reachable : loopSystem.Reachable raisedState := by
  have start : loopSystem.Reachable .initial := .start rfl
  have executed : loopSystem.run .initial
      [.reporter, .reporter, .reporter, .raise] = some raisedState := rfl
  exact System.reachableBy_of_runBy start executed

theorem waitingState_steps :
    loopSystem.StepsBy (fun passed label => ¬ BeginsScan passed label)
      raisedState waitingState := by
  have executed : loopSystem.runBy
      (fun passed label => ¬ BeginsScan passed label) raisedState
      [.reporter, .reporter, .reporter, .reporter, .reporter, .reporter,
        .reporter, .signal false, .signal true, .signal false, .signal false,
        .signal false] = some waitingState := rfl
  exact System.stepsBy_of_runBy executed

theorem reporter_answers_peak_waitingState :
    waitingState.history.steps ≤ raisedState.history.steps + 9 ∧
      waitingState.history.slept ≤ raisedState.history.slept + 1 ∧
      CanGoOn waitingState :=
  reporter_answers_peak raisedState_reachable rfl (by decide) (by decide)
    waitingState_steps

theorem waitingState_reachable : loopSystem.Reachable waitingState :=
  raisedState_reachable.extend
    (waitingState_steps.mono fun _ _ _ => trivial)

theorem reporter_paces_waitingState :
    (∀ kind, waitingState.reporter = .scan kind →
        waitingState.signal ≠ .scan) ∧
      (waitingState.reporter = .acquire .periodic →
        waitingState.history.Paced) ∧
      waitingState.history.points + waitingState.reporter.owesPoint =
        waitingState.history.slept :=
  reporter_paces waitingState_reachable

def stoppedState : LoopState := { waitingState with running := false }

/-- The signal thread lets the second scan begin, and the final one follows. -/
def endedState : LoopState :=
  { LoopState.initial with
    running := false
    reporter := .ended
    history :=
      { steps := 16
        slept := 2
        points := 2
        rested := 0
        tookPeak := false
        lateScans := 2 } }

theorem reporter_stops_endedState :
    endedState.history.steps ≤ stoppedState.history.steps + 8 ∧
      endedState.history.slept ≤ stoppedState.history.slept + 1 ∧
      (endedState.reporter ≠ .ended → CanGoOn endedState) ∧
      (endedState.reporter = .ended →
        1 ≤ endedState.history.lateScans ∧
          endedState.history.lateScans ≤ 2) := by
  have stopped : loopSystem.next waitingState .stop = some stoppedState := rfl
  have executed : loopSystem.run stoppedState
      [.signal false, .reporter, .reporter, .reporter, .reporter, .reporter,
        .reporter] = some endedState := rfl
  exact reporter_stops (.step waitingState_reachable trivial stopped) rfl
    (System.stepsBy_of_runBy executed)

end MemoryTraceTool.ReporterLoop
