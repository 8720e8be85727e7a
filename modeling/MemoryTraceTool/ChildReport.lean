import MemoryTraceTool.ForkChild

/-!
# What a forked child reports

After `mtt_fork_child` and `mtt_ensure_init` the child should report what a
process reports that was started afresh.
-/

namespace MemoryTraceTool.ForkChild

open Transition

/-- What a process can report, and what its next report depends on. -/
structure ToolReport where
  chains : Option (Nat → List (MttAllocSnap 64))
  poolMode : PoolMode
  poolCapacity : Nat
  poolUsed : Nat
  poolFreeLists : Nat → List Nat
  counters : ToolCounters
  leakBytesTotal : Word
  expiredAllocCount : Nat
  series : List MttTsPoint
  leaks : List (MttLeakSite 64)
  prevDiff : List (Word × Word)

def ToolState.chainReport (state : ToolState) (table : BucketTable)
    (chain : Nat) : List (MttAllocSnap 64) :=
  if chain < state.bucketCount then
    (table.chains chain).map TrackedEntry.snap
  else []

/-- All that the tool shows of its accounts. -/
def ToolState.report (state : ToolState) : ToolReport :=
  { chains := state.buckets.map state.chainReport
    poolMode := state.poolMode
    poolCapacity := state.poolCapacity
    poolUsed := state.poolUsed
    poolFreeLists := state.poolFreeLists
    counters := state.counters
    leakBytesTotal := state.reporter.leakBytesTotal
    expiredAllocCount := state.reporter.expiredAllocCount
    series := handleApiDataRead state.tsInitialized true true state.series
    leaks := state.reporter.cachedSites
    prevDiff := state.reporter.prevDiff }

/-- One of the raw allocators gives the pool. -/
def InitEnv.obtainsPool (env : InitEnv) : Bool :=
  decide (env.rawMalloc = some true) || env.rawCalloc.any CallocAnswers.pool

/-- The pool that an initialisation gets in this environment. -/
def InitEnv.grantedCapacity (env : InitEnv) : Nat :=
  if env.obtainsPool then env.wantPoolEntries else 0

/-- An empty bucket table, full free lists, and nothing else. -/
def ToolReport.blank (env : InitEnv) : ToolReport :=
  { chains := some fun _ => []
    poolMode := if env.obtainsPool then .active else .fallback
    poolCapacity := env.grantedCapacity
    poolUsed := 0
    poolFreeLists := fillFreeLists env.grantedCapacity
    counters := .zero
    leakBytesTotal := 0
    expiredAllocCount := 0
    series := []
    leaks := []
    prevDiff := [] }

/-- After its initialisation the process reports what a fresh one reports
after the same initialisation. -/
structure StartsAfresh (env : InitEnv) (process : ToolState) : Prop where
  same : (mttEnsureInit env process).report =
    (mttEnsureInit env .fresh).report
  blank : env.obtainsTable = true →
    (mttEnsureInit env process).report = .blank env

/-- The pool and the counters that only a successful initialisation stores. -/
structure NeverTracked (state : ToolState) : Prop where
  poolMode : state.poolMode = .none
  poolCapacity : state.poolCapacity = 0
  sampleCounter : state.counters.sampleCounter = 0
  tempAllocCount : state.counters.tempAllocCount = 0
  freeExpiredCount : state.counters.freeExpiredCount = 0
  expiredAllocCount : state.reporter.expiredAllocCount = 0

/-- The parent can be forked and has nothing that the child would go on to
report: no points, no written report.  If a fresh process gets no bucket
table, the child must not keep one and the parent never tracked anything. -/
structure LeavesNothing (env : InitEnv) (parent : ToolState) : Prop where
  forkable : parent.buckets = none → parent.bucketCount = 0
  noPoints : parent.tsInitialized = true → parent.series.count = 0
  noSites : parent.reporter.cachedSites = []
  noSizes : parent.reporter.prevDiff = []
  noTable : env.obtainsTable = false →
    (env.rawCalloc = none → parent.buckets = none) ∧ NeverTracked parent

/-! ## The points that are left -/

theorem handleApiDataRead_eq_nil_iff {Point : Type} (ready : Bool)
    (series : MttTimeSeries Point) :
    handleApiDataRead ready true true series = [] ↔
      (ready = true → series.count = 0) := by
  cases ready with
  | false => simp [handleApiDataRead]
  | true =>
      by_cases none : series.count = 0
      · simp [handleApiDataRead, mttTsGetRange, mttTsReadPoints, none]
      · have first : ∀ (slot : Nat → Point) (valid : Nat), 0 < valid →
            Ring.collect slot valid mttTsReadPoints 0 ≠ [] := by
          intro slot valid positive
          rw [show mttTsReadPoints = 359 + 1 from rfl, Ring.collect,
            if_pos positive]
          exact List.cons_ne_nil _ _
        have positive : 0 < series.count := by omega
        by_cases filling : series.count ≤ mttTsMaxPoints
        · simpa [handleApiDataRead, mttTsGetRange, mttTsReadPoints, none,
            filling] using first series.points series.count positive
        · simpa [handleApiDataRead, mttTsGetRange, mttTsReadPoints, none,
            filling] using first _ mttTsMaxPoints (by decide)

theorem mttTsInitOnce_report (state : ToolState) :
    (mttTsInitOnce state).report = state.report := by
  unfold mttTsInitOnce
  split
  · rfl
  · rename_i pending
    rw [Bool.not_eq_true] at pending
    have empty := (handleApiDataRead_eq_nil_iff true
      (mttTsInit MttTsPoint.zero)).mpr fun _ => rfl
    have unread := (handleApiDataRead_eq_nil_iff false state.series).mpr
      fun ready => nomatch ready
    simp only [ToolState.report, pending, empty, unread]
    rfl

/-! ## The report after an initialisation -/

/-- The last resort of `allocateBuckets`. -/
def bootstrapBuckets (env : InitEnv) (state : ToolState) : ToolState :=
  match state.buckets with
  | some _ => state
  | none =>
      if env.bootstrapCalloc then
        state.newTable (.bootstrap state.nextBlock)
      else state

/-- The state may differ in its bucket table. -/
def DiffersInTable (state later : ToolState) : Prop :=
  ∃ buckets nextBlock tables, later =
    { state with bucketCount := mttBuckets, buckets, nextBlock, tables }

theorem DiffersInTable.bootstrapBuckets (env : InitEnv)
    {state later : ToolState} (differs : DiffersInTable state later) :
    DiffersInTable state (bootstrapBuckets env later) := by
  obtain ⟨buckets, nextBlock, tables, rfl⟩ := differs
  unfold ForkChild.bootstrapBuckets
  split
  · exact ⟨_, _, _, rfl⟩
  · split
    · exact ⟨_, _, _, rfl⟩
    · exact ⟨_, _, _, rfl⟩

theorem allocateBuckets_shape (env : InitEnv) (state : ToolState) :
    DiffersInTable state (allocateBuckets env state) := by
  apply DiffersInTable.bootstrapBuckets env
  split
  · exact ⟨_, _, _, rfl⟩
  · split
    · exact ⟨_, _, _, rfl⟩
    · exact ⟨_, _, _, rfl⟩

theorem allocateBuckets_report (env : InitEnv) (state : ToolState) :
    (allocateBuckets env state).report =
      { state.report with
        chains := (allocateBuckets env state).report.chains } := by
  obtain ⟨buckets, nextBlock, tables, shape⟩ :=
    allocateBuckets_shape env state
  rw [shape]
  rfl

theorem allocatePool_report (env : InitEnv) (state : ToolState) :
    (allocatePool env state).report =
      { state.report with
        poolMode := if env.obtainsPool then .active else .fallback
        poolCapacity := env.grantedCapacity
        poolUsed := 0
        poolFreeLists := fillFreeLists env.grantedCapacity } := by
  by_cases malloc : env.rawMalloc = some true
  · simp [allocatePool, malloc, ToolState.newPool, InitEnv.obtainsPool,
      InitEnv.grantedCapacity, ToolState.report]
    rfl
  · by_cases calloc : env.rawCalloc.any CallocAnswers.pool = true
    · simp [allocatePool, malloc, calloc, ToolState.newPool,
        InitEnv.obtainsPool, InitEnv.grantedCapacity, ToolState.report]
      rfl
    · simp [allocatePool, malloc, calloc, InitEnv.obtainsPool,
        InitEnv.grantedCapacity, ToolState.report, fillFreeLists]
      rfl

theorem mttEnsureInit_report (env : InitEnv) {state : ToolState}
    (pending : state.initialized = false)
    (clear : (allocateBuckets env state).report.chains =
      some fun _ => []) :
    (mttEnsureInit env state).report =
      { ToolReport.blank env with
        leakBytesTotal := state.reporter.leakBytesTotal
        series := handleApiDataRead state.tsInitialized true true state.series
        leaks := state.reporter.cachedSites
        prevDiff := state.reporter.prevDiff } := by
  have allocated := allocateBuckets_report env state
  rw [clear] at allocated
  have seeded : (seedHash env (allocateBuckets env state)).report =
      { state.report with chains := some fun _ => [] } := allocated
  have pooled := allocatePool_report env
    (seedHash env (allocateBuckets env state))
  have stored (later : ToolState) : (storeSettings env later).report =
      { later.report with counters := .zero, expiredAllocCount := 0 } := rfl
  unfold mttEnsureInit
  rw [pending, if_neg Bool.false_ne_true]
  cases buckets : (allocateBuckets env state).buckets with
  | none => simp [ToolState.report, buckets] at clear
  | some table =>
      simp only
      rw [mttTsInitOnce_report, stored, pooled, seeded]
      rfl

theorem mttEnsureInit_report_noTable (env : InitEnv) {state : ToolState}
    (pending : state.initialized = false)
    (refused : (allocateBuckets env state).buckets = none) :
    (mttEnsureInit env state).report = { state.report with chains := none } := by
  have allocated := allocateBuckets_report env state
  have chains : (allocateBuckets env state).report.chains = none := by
    simp [ToolState.report, refused]
  rw [chains] at allocated
  unfold mttEnsureInit
  rw [pending, if_neg Bool.false_ne_true]
  cases buckets : (allocateBuckets env state).buckets with
  | none => exact allocated
  | some table =>
      rw [refused] at buckets
      cases buckets

/-! ## The bucket table -/

/-- A table that is left in memory has been emptied. -/
def EmptyTable (state : ToolState) : Prop :=
  ∀ table, state.buckets = some table →
    ∀ chain < mttBuckets, table.chains chain = []

theorem EmptyTable.newTable (state : ToolState) (block : Block) :
    EmptyTable (state.newTable block) := by
  intro table buckets chain _
  cases buckets
  rfl

theorem EmptyTable.bootstrapBuckets (env : InitEnv) {state : ToolState}
    (empty : EmptyTable state) : EmptyTable (bootstrapBuckets env state) := by
  unfold ForkChild.bootstrapBuckets
  split
  · exact empty
  · split
    · exact .newTable _ _
    · exact empty

theorem EmptyTable.allocateBuckets (env : InitEnv) {state : ToolState}
    (empty : EmptyTable state) : EmptyTable (allocateBuckets env state) := by
  apply EmptyTable.bootstrapBuckets env
  split
  · exact empty
  · split
    · exact .newTable _ _
    · intro table buckets
      cases buckets

theorem EmptyTable.report_chains (env : InitEnv) {state : ToolState}
    (empty : EmptyTable state)
    (obtained : (ForkChild.allocateBuckets env state).buckets ≠ none) :
    (ForkChild.allocateBuckets env state).report.chains =
      some fun _ => [] := by
  obtain ⟨table, buckets⟩ := Option.ne_none_iff_exists'.mp obtained
  have cleared := empty.allocateBuckets env table buckets
  obtain ⟨_, _, _, shape⟩ := allocateBuckets_shape env state
  have bucketCount :
      (ForkChild.allocateBuckets env state).bucketCount = mttBuckets := by
    rw [shape]
  simp only [ToolState.report, buckets, Option.map_some, Option.some.injEq]
  funext chain
  rw [ToolState.chainReport, bucketCount]
  split
  · rename_i inside
    rw [cleared chain inside, List.map_nil]
  · rfl

theorem allocateBuckets_eq_none_iff (env : InitEnv) (state : ToolState) :
    (allocateBuckets env state).buckets = none ↔
      env.obtainsTable = false ∧
        (env.rawCalloc = none → state.buckets = none) := by
  have table_iff (later : ToolState) :
      later.table = none ↔ later.buckets = none := Option.map_eq_none_iff
  rw [← table_iff, ← table_iff]
  cases allocateBuckets_outcome env state with
  | obtained block answered replaced table tables =>
      rw [table, answered]
      simp
  | kept null present table tables =>
      rw [table]
      rw [Option.isSome_iff_ne_none] at present
      simp [null, present]
  | failed refused replaced table tables =>
      rw [table, refused]
      simp only [true_and, true_iff]
      intro null
      rcases replaced with given | missing
      · exact (given null).elim
      · exact missing

/-! ## The child of a parent -/

/-- What `mtt_fork_child` makes of the parent. -/
structure ForkedFrom (parent child : ToolState) : Prop where
  pending : child.initialized = false
  noBuckets : child.buckets = none ↔ parent.buckets = none
  emptied : ∀ table, child.buckets = some table →
    ∀ chain < parent.bucketCount, table.chains chain = []
  report : child.report =
    { parent.report with
      chains := child.report.chains
      counters :=
        { ToolCounters.zero with
          sampleCounter := parent.counters.sampleCounter
          tempAllocCount := parent.counters.tempAllocCount
          freeExpiredCount := parent.counters.freeExpiredCount }
      leakBytesTotal := 0
      poolUsed := 0
      poolFreeLists :=
        if parent.pool.isSome then fillFreeLists parent.poolCapacity
        else fun _ => [] }

theorem mttForkChild_forkedFrom {parent child : ToolState}
    (forked : mttForkChild parent = some child) : ForkedFrom parent child := by
  unfold mttForkChild at forked
  cases buckets : parent.buckets with
  | some table =>
      rw [buckets] at forked
      cases forked
      constructor
      · rfl
      · simp [buckets]
      · intro later isLater chain inside
        cases isLater
        exact if_pos inside
      · rfl
  | none =>
      simp only [buckets] at forked
      split at forked
      · cases forked
        constructor
        · rfl
        · simp [buckets]
        · intro later isLater
          cases isLater
        · rfl
      · cases forked

theorem mttForkChild_isSome_iff (parent : ToolState) :
    (∃ child, mttForkChild parent = some child) ↔
      (parent.buckets = none → parent.bucketCount = 0) := by
  cases buckets : parent.buckets with
  | some table => simp [mttForkChild, buckets]
  | none =>
      by_cases noChains : parent.bucketCount = 0 <;>
        simp [mttForkChild, buckets, noChains]

theorem bucketCount_of_reachable {state : ToolState}
    (reachable : toolSystem.Reachable state) (table : state.table ≠ none) :
    state.bucketCount = mttBuckets := by
  have sized : state.table ≠ none → state.bucketCount = mttBuckets := by
    apply reachable.invariant fun state =>
      state.table ≠ none → state.bucketCount = mttBuckets
    · intro state starts present
      rw [show state = .fresh from starts] at present
      exact (present rfl).elim
    · intro state label later before _ taken
      by_cases initialises : ∃ env, label = .ensureInit env
      · obtain ⟨env, rfl⟩ := initialises
        cases taken
        cases ready : state.initialized with
        | true =>
            rw [mttEnsureInit_done env ready]
            exact before
        | false =>
            intro _
            exact mttEnsureInit_bucketCount env ready
      · obtain ⟨same, _⟩ := toolNext_sameMemory
          (fun env isInit => initialises ⟨env, isInit⟩) taken
        rw [same.table, same.bucketCount]
        exact before
  exact sized table

theorem ForkedFrom.emptyTable {parent child : ToolState}
    (forked : ForkedFrom parent child)
    (reachable : toolSystem.Reachable parent) : EmptyTable child := by
  intro table buckets chain inside
  have present : parent.table ≠ none := by
    intro missing
    have noBuckets := forked.noBuckets.mpr (Option.map_eq_none_iff.mp missing)
    rw [buckets] at noBuckets
    cases noBuckets
  apply forked.emptied table buckets
  rw [bucketCount_of_reachable reachable present]
  exact inside

theorem fresh_emptyTable : EmptyTable .fresh := by
  intro table buckets
  cases buckets

theorem fresh_report (env : InitEnv) (obtained : env.obtainsTable = true) :
    (mttEnsureInit env .fresh).report = .blank env := by
  have some : (allocateBuckets env .fresh).buckets ≠ none := by
    rw [ne_eq, allocateBuckets_eq_none_iff, obtained]
    simp
  exact mttEnsureInit_report env rfl (fresh_emptyTable.report_chains env some)

/-- A child with a bucket table reports what its parent's points and written
report leave. -/
theorem ForkedFrom.blank_iff (env : InitEnv) {parent child : ToolState}
    (forked : ForkedFrom parent child)
    (chains : (allocateBuckets env child).report.chains = some fun _ => []) :
    (mttEnsureInit env child).report = .blank env ↔
      (parent.tsInitialized = true → parent.series.count = 0) ∧
        parent.reporter.cachedSites = [] ∧ parent.reporter.prevDiff = [] := by
  have later := mttEnsureInit_report env forked.pending chains
  have leakBytes := congrArg ToolReport.leakBytesTotal forked.report
  have series := congrArg ToolReport.series forked.report
  have leaks := congrArg ToolReport.leaks forked.report
  have prevDiff := congrArg ToolReport.prevDiff forked.report
  simp only [ToolState.report] at leakBytes series leaks prevDiff
  rw [later, leakBytes, series, leaks, prevDiff,
    ← handleApiDataRead_eq_nil_iff]
  simp [ToolReport.blank]

/-- A child without a table reports what is left of its parent, the chains
apart. -/
theorem ForkedFrom.refused_iff (env : InitEnv) {parent child : ToolState}
    (forked : ForkedFrom parent child)
    (refused : (allocateBuckets env child).buckets = none)
    (freshRefused : (allocateBuckets env .fresh).buckets = none) :
    (mttEnsureInit env child).report = (mttEnsureInit env .fresh).report ↔
      ((parent.tsInitialized = true → parent.series.count = 0) ∧
        parent.reporter.cachedSites = [] ∧ parent.reporter.prevDiff = []) ∧
          NeverTracked parent := by
  have later := mttEnsureInit_report_noTable env forked.pending refused
  have freshLater := mttEnsureInit_report_noTable env
    (show ToolState.fresh.initialized = false from rfl) freshRefused
  have fewer_iff : NeverTracked parent ↔
      (parent.poolMode = .none ∧ parent.poolCapacity = 0) ∧
        (parent.counters.sampleCounter = 0 ∧
          parent.counters.tempAllocCount = 0 ∧
          parent.counters.freeExpiredCount = 0) ∧
        parent.reporter.expiredAllocCount = 0 := by
    constructor
    · intro never
      exact ⟨⟨never.poolMode, never.poolCapacity⟩, ⟨never.sampleCounter,
        never.tempAllocCount, never.freeExpiredCount⟩,
        never.expiredAllocCount⟩
    · intro fields
      obtain ⟨⟨mode, capacity⟩, ⟨sample, temp, freeExpired⟩, expired⟩ := fields
      exact ⟨mode, capacity, sample, temp, freeExpired, expired⟩
  have noLists : parent.poolCapacity = 0 →
      (if parent.pool.isSome then fillFreeLists parent.poolCapacity
        else fun _ => []) = fun _ => [] := by
    intro empty
    rw [empty]
    split <;> rfl
  rw [later, freshLater, forked.report, ← handleApiDataRead_eq_nil_iff,
    fewer_iff]
  have noRead : handleApiDataRead false true true
      (mttTsInit MttTsPoint.zero) = [] := rfl
  simp only [ToolState.report, ToolReport.mk.injEq, ToolCounters.mk.injEq,
    ToolCounters.zero, ToolState.fresh, Reporter.start, noRead]
  grind

theorem fresh_refused {env : InitEnv} (noTable : env.obtainsTable = false) :
    (allocateBuckets env .fresh).buckets = none :=
  (allocateBuckets_eq_none_iff env .fresh).mpr ⟨noTable, fun _ => rfl⟩

theorem StartsAfresh.obtainsTable {env : InitEnv} {child : ToolState}
    (afresh : StartsAfresh env child) (pending : child.initialized = false)
    (chains : (allocateBuckets env child).report.chains =
      some fun _ => []) : env.obtainsTable = true := by
  by_contra noTable
  rw [Bool.not_eq_true] at noTable
  have freshLater := mttEnsureInit_report_noTable env
    (show ToolState.fresh.initialized = false from rfl)
    (fresh_refused noTable)
  have same := congrArg ToolReport.chains afresh.same
  rw [freshLater, mttEnsureInit_report env pending chains] at same
  cases same

theorem StartsAfresh.leavesNothing {env : InitEnv}
    {parent child : ToolState} (reachable : toolSystem.Reachable parent)
    (isChild : mttForkChild parent = some child)
    (afresh : StartsAfresh env child) : LeavesNothing env parent := by
  have forked := mttForkChild_forkedFrom isChild
  have forkable := (mttForkChild_isSome_iff parent).mp ⟨child, isChild⟩
  by_cases refused : (allocateBuckets env child).buckets = none
  · have ⟨noTable, noBuckets⟩ :=
      (allocateBuckets_eq_none_iff env child).mp refused
    obtain ⟨⟨noPoints, noSites, noSizes⟩, never⟩ :=
      (forked.refused_iff env refused (fresh_refused noTable)).mp afresh.same
    have noParent : env.rawCalloc = none → parent.buckets = none :=
      fun null => forked.noBuckets.mp (noBuckets null)
    exact ⟨forkable, noPoints, noSites, noSizes, fun _ => ⟨noParent, never⟩⟩
  · have chains := (forked.emptyTable reachable).report_chains env refused
    have obtained := afresh.obtainsTable forked.pending chains
    obtain ⟨noPoints, noSites, noSizes⟩ :=
      (forked.blank_iff env chains).mp (afresh.blank obtained)
    refine ⟨forkable, noPoints, noSites, noSizes, ?_⟩
    intro noTable
    rw [obtained] at noTable
    cases noTable

theorem LeavesNothing.startsAfresh {env : InitEnv} {parent child : ToolState}
    (reachable : toolSystem.Reachable parent)
    (isChild : mttForkChild parent = some child)
    (leaves : LeavesNothing env parent) : StartsAfresh env child := by
  have forked := mttForkChild_forkedFrom isChild
  have nothing := And.intro leaves.noPoints
    (And.intro leaves.noSites leaves.noSizes)
  cases obtained : env.obtainsTable with
  | true =>
      have some : (allocateBuckets env child).buckets ≠ none := by
        rw [ne_eq, allocateBuckets_eq_none_iff, obtained]
        simp
      have chains := (forked.emptyTable reachable).report_chains env some
      have blank := (forked.blank_iff env chains).mpr nothing
      exact ⟨blank.trans (fresh_report env obtained).symm, fun _ => blank⟩
  | false =>
      obtain ⟨noParent, never⟩ := leaves.noTable obtained
      have refused : (allocateBuckets env child).buckets = none := by
        rw [allocateBuckets_eq_none_iff]
        exact ⟨obtained, fun null => forked.noBuckets.mpr (noParent null)⟩
      constructor
      · exact (forked.refused_iff env refused (fresh_refused obtained)).mpr
          ⟨nothing, never⟩
      · intro granted
        rw [obtained] at granted
        cases granted

/-- The child of any process of a chain starts afresh exactly if the parent
leaves nothing. -/
theorem startsAfresh_iff (env : InitEnv) {parent : ToolState}
    (reachable : toolSystem.Reachable parent) :
    (∃ child, mttForkChild parent = some child ∧ StartsAfresh env child) ↔
      LeavesNothing env parent := by
  constructor
  · intro forks
    obtain ⟨child, isChild, afresh⟩ := forks
    exact afresh.leavesNothing reachable isChild
  · intro leaves
    obtain ⟨child, isChild⟩ :=
      (mttForkChild_isSome_iff parent).mpr leaves.forkable
    exact ⟨child, isChild, leaves.startsAfresh reachable isChild⟩

/-- A process that has only been initialised. -/
def idleProcess : ToolState := mttEnsureInit plainEnv .fresh

theorem idleProcess_reachable : toolSystem.Reachable idleProcess := by
  have first : toolSystem.Reachable .fresh := .start rfl
  exact .step first trivial
    (show toolSystem.next .fresh (.ensureInit plainEnv) = some idleProcess
      from rfl)

/-- A process that has recorded one point. -/
def recordingProcess : ToolState := recordPoint idleProcess 101 none 4096

theorem recordingProcess_reachable :
    toolSystem.Reachable recordingProcess :=
  .step idleProcess_reachable trivial
    (show toolSystem.next idleProcess (.record 101 none 4096) =
      some recordingProcess from rfl)

theorem startsAfresh_ofIdleProcess :
    ∃ child, mttForkChild idleProcess = some child ∧
      StartsAfresh plainEnv child := by
  apply (startsAfresh_iff plainEnv idleProcess_reachable).mpr
  constructor
  · exact fun missing => nomatch missing
  · exact fun _ => rfl
  · rfl
  · rfl
  · exact fun noTable => nomatch noTable

/-- The child goes on serving the point that its parent recorded. -/
theorem startsAfresh_fails_withPoints :
    ¬ ∀ (env : InitEnv) (parent : ToolState), toolSystem.Reachable parent →
      ∃ child, mttForkChild parent = some child ∧ StartsAfresh env child := by
  intro claimed
  obtain ⟨child, isChild, afresh⟩ :=
    claimed plainEnv recordingProcess recordingProcess_reachable
  have forked := mttForkChild_forkedFrom isChild
  have granted : (allocateBuckets plainEnv child).buckets ≠ none := by
    rw [ne_eq, allocateBuckets_eq_none_iff]
    exact fun refused => nomatch refused.1
  have chains := (forked.emptyTable recordingProcess_reachable).report_chains
    plainEnv granted
  have noPoints :=
    ((forked.blank_iff plainEnv chains).mp (afresh.blank rfl)).1 rfl
  cases noPoints

end MemoryTraceTool.ForkChild
