import MemoryTraceTool.EntryTable
import MemoryTraceTool.Lib.Transition
import MemoryTraceTool.LeakGrowth
import MemoryTraceTool.TimeSeries

/-!
# The tool in a forked child

`mtt_fork_child` resets the state that a child inherits and clears
`initialized`, so that the next hook runs `mtt_ensure_init` again, with the
bucket table, the entry pool, the reporter and the time series of the parent
still in memory.
-/

namespace MemoryTraceTool.ForkChild

open Transition

/-- A block obtained through `raw_malloc` or `raw_calloc`, or from the
bootstrap arena; the number tells all blocks apart. -/
inductive Block where
  | raw (id : Nat)
  | bootstrap (id : Nat)
  deriving DecidableEq, Repr

/-- A record of a tracked block and its pool slot, if it has one. -/
structure TrackedEntry where
  slot : Option Nat
  snap : MttAllocSnap 64
  deriving DecidableEq

/-- The block of the table, and the chains in it. -/
structure BucketTable where
  block : Block
  chains : Nat → List TrackedEntry

/-- `pool_mode`. -/
inductive PoolMode where
  | none
  | active
  | fallback
  deriving DecidableEq, Repr

/-- The counters of the tracker that a scan does not write. -/
structure ToolCounters where
  allocSeq : Nat
  allocCount : Nat
  freeCount : Nat
  currentBytes : Nat
  peakBytes : Nat
  totalBytes : Nat
  entryCount : Nat
  sampleCounter : Nat
  sampleBytesAccum : Int
  skippedSampled : Nat
  skippedOvercap : Nat
  peakUpdated : Bool
  tempAllocCount : Nat
  freeExpiredCount : Nat
  deriving DecidableEq

def ToolCounters.zero : ToolCounters :=
  { allocSeq := 0
    allocCount := 0
    freeCount := 0
    currentBytes := 0
    peakBytes := 0
    totalBytes := 0
    entryCount := 0
    sampleCounter := 0
    sampleBytesAccum := 0
    skippedSampled := 0
    skippedOvercap := 0
    peakUpdated := false
    tempAllocCount := 0
    freeExpiredCount := 0 }

/-- The settings that `mtt_ensure_init` takes from the environment. -/
structure ToolSettings where
  samplePeriod : Nat
  sampleRate : Nat
  leakThresholdSec : Int
  startupUntil : Int
  debugLevel : Int
  deriving DecidableEq, Repr

/-- The static values; `MTT_DEBUG_DEFAULT` is 1. -/
def ToolSettings.initial : ToolSettings :=
  { samplePeriod := 0
    sampleRate := 0
    leakThresholdSec := 0
    startupUntil := 0
    debugLevel := 1 }

/-- The memory of the tool.  The free lists hold indices into the pool.
`tables` and `pools` record every block that was obtained for a bucket table
or for an entry pool, in this process or before its forks. -/
structure ToolState where
  initialized : Bool
  disabled : Bool
  buckets : Option BucketTable
  bucketCount : Nat
  hashSeed : Word
  pool : Option Block
  poolCapacity : Nat
  poolUsed : Nat
  poolMode : PoolMode
  poolFreeLists : Nat → List Nat
  counters : ToolCounters
  settings : ToolSettings
  reporter : Reporter 64
  tsInitialized : Bool
  series : MttTimeSeries MttTsPoint
  nextBlock : Nat
  tables : List Block
  pools : List Block

/-- The statically initialised memory of a new process. -/
def ToolState.fresh : ToolState :=
  { initialized := false
    disabled := false
    buckets := none
    bucketCount := 0
    hashSeed := 0
    pool := none
    poolCapacity := 0
    poolUsed := 0
    poolMode := .none
    poolFreeLists := fun _ => []
    counters := .zero
    settings := .initial
    reporter := .start 64
    tsInitialized := false
    series := mttTsInit .zero
    nextBlock := 0
    tables := []
    pools := [] }

/-- How `raw_calloc` answers the requests for the table and for the pool. -/
structure CallocAnswers where
  buckets : Bool
  pool : Bool
  deriving DecidableEq, Repr

/-- What one run of `mtt_ensure_init` finds outside the tool; `none` stands
for a NULL function pointer. -/
structure InitEnv where
  wantPoolEntries : Nat
  wantSample : Nat
  wantSrate : Nat
  wantDisabled : Bool
  wantLeakThreshold : Int
  wantDebug : Int
  wantSkipStartup : Int
  time : Int
  pid : Nat
  rawCalloc : Option CallocAnswers
  bootstrapCalloc : Bool
  rawMalloc : Option Bool
  blacklistSelfMatch : Bool
  deriving DecidableEq, Repr

/-- Put every slot of the pool into the list of its index modulo 64. -/
def fillFreeLists (capacity : Nat) : Nat → List Nat :=
  (List.range capacity).foldl (fun lists slot =>
    Function.update lists (slot % mttLockStripes)
      (slot :: lists (slot % mttLockStripes))) fun _ => []

def ToolState.newTable (state : ToolState) (block : Block) : ToolState :=
  { state with
    buckets := some { block, chains := fun _ => [] }
    nextBlock := state.nextBlock + 1
    tables := block :: state.tables }

def ToolState.newPool (state : ToolState) (block : Block) : ToolState :=
  { state with
    pool := some block
    nextBlock := state.nextBlock + 1
    pools := block :: state.pools }

/-- The part of `mtt_ensure_init` that allocates the bucket table. -/
def allocateBuckets (env : InitEnv) (state : ToolState) : ToolState :=
  let state := { state with bucketCount := mttBuckets }
  let state :=
    match env.rawCalloc with
    | none => state
    | some answers =>
        if answers.buckets then state.newTable (.raw state.nextBlock)
        else { state with buckets := none }
  match state.buckets with
  | some _ => state
  | none =>
      if env.bootstrapCalloc then
        state.newTable (.bootstrap state.nextBlock)
      else state

/-- The part of `mtt_ensure_init` that allocates the entry pool. -/
def allocatePool (env : InitEnv) (state : ToolState) : ToolState :=
  let state :=
    { state with
      poolCapacity := env.wantPoolEntries
      pool := none
      poolUsed := 0
      poolMode := .none
      poolFreeLists := fun _ => [] }
  let state :=
    if env.rawMalloc = some true then state.newPool (.raw state.nextBlock)
    else if env.rawCalloc.any CallocAnswers.pool then
      state.newPool (.raw state.nextBlock)
    else state
  match state.pool with
  | some _ =>
      { state with
        poolFreeLists := fillFreeLists state.poolCapacity
        poolMode := .active }
  | none => { state with poolCapacity := 0, poolMode := .fallback }

/-- `mtt_ts_init`, which initialises once. -/
def mttTsInitOnce (state : ToolState) : ToolState :=
  if state.tsInitialized then state
  else { state with series := mttTsInit .zero, tsInitialized := true }

/-- The seed from the time and the process ID. -/
def seedHash (env : InitEnv) (state : ToolState) : ToolState :=
  { state with
    hashSeed := BitVec.ofInt 64 env.time ^^^
      BitVec.ofNat 64 env.pid <<< 16 ^^^ 0x9e3779b97f4a7c15#64 }

/-- The stores after the allocations, up to `initialized`. -/
def storeSettings (env : InitEnv) (state : ToolState) : ToolState :=
  { state with
    counters := .zero
    reporter := { state.reporter with expiredAllocCount := 0 }
    settings :=
      { samplePeriod := env.wantSample
        sampleRate := env.wantSrate
        leakThresholdSec := env.wantLeakThreshold
        debugLevel := env.wantDebug
        startupUntil :=
          if 0 < env.wantSkipStartup then env.time + env.wantSkipStartup
          else 0 }
    disabled := env.wantDisabled || env.blacklistSelfMatch
    initialized := true }

/-- `mtt_ensure_init`, as far as the tool's memory goes. -/
def mttEnsureInit (env : InitEnv) (state : ToolState) : ToolState :=
  if state.initialized then state
  else
    match (allocateBuckets env state).buckets with
    | none =>
        { allocateBuckets env state with
          disabled := true
          initialized := true }
    | some _ =>
        mttTsInitOnce (storeSettings env (allocatePool env
          (seedHash env (allocateBuckets env state))))

/-- `mtt_fork_child`; `none` when it writes through a NULL bucket table. -/
def mttForkChild (state : ToolState) : Option ToolState :=
  let reset : ToolState :=
    { state with
      counters :=
        { state.counters with
          allocSeq := 0
          allocCount := 0
          freeCount := 0
          currentBytes := 0
          peakBytes := 0
          totalBytes := 0
          entryCount := 0
          sampleBytesAccum := 0
          skippedSampled := 0
          skippedOvercap := 0
          peakUpdated := false }
      reporter := { state.reporter with leakBytesTotal := 0 }
      poolUsed := 0
      poolFreeLists :=
        if state.pool.isSome then fillFreeLists state.poolCapacity
        else fun _ => []
      initialized := false }
  match state.buckets with
  | some table =>
      some { reset with
        buckets := some { table with chains := fun chain =>
          if chain < state.bucketCount then [] else table.chains chain } }
  | none => if state.bucketCount = 0 then some reset else none

/-! ## What a process does between its forks -/

/-- The first free slot, starting with the list of the stripe. -/
def takeFreeSlot (lists : Nat → List Nat) (stripe : Nat) :
    Option (Nat × (Nat → List Nat)) :=
  (List.range mttLockStripes).findSome? fun offset =>
    let index := (stripe + offset) % mttLockStripes
    match lists index with
    | slot :: rest => some (slot, Function.update lists index rest)
    | [] => none

/-- `mtt_entry_new`; an entry outside the pool comes from `raw_malloc`. -/
def mttEntryNew (state : ToolState) (snap : MttAllocSnap 64) :
    Option (TrackedEntry × ToolState) :=
  if state.pool.isSome then
    (takeFreeSlot state.poolFreeLists
      (mttStripeOf snap.ptr state.bucketCount state.hashSeed)).map
        fun (slot, lists) =>
          ({ slot, snap },
            { state with
              poolFreeLists := lists
              poolUsed := state.poolUsed + 1 })
  else some ({ slot := none, snap }, state)

/-- The counters after an allocation was recorded. -/
def ToolCounters.recorded (counters : ToolCounters) (size : Nat) :
    ToolCounters :=
  { counters with
    allocSeq := counters.allocSeq + 1
    allocCount := counters.allocCount + 1
    currentBytes := counters.currentBytes + size
    totalBytes := counters.totalBytes + size
    peakBytes := max counters.peakBytes (counters.currentBytes + size)
    peakUpdated := counters.peakUpdated ||
      decide (counters.peakBytes < counters.currentBytes + size)
    entryCount := counters.entryCount + 1 }

/-- The tracked path of an allocating hook. -/
def trackBlock (state : ToolState) (snap : MttAllocSnap 64) :
    Option ToolState :=
  match state.buckets with
  | none => none
  | some table =>
      if state.initialized ∧ ¬ state.disabled ∧
          state.counters.entryCount < mttMaxEntries then
        (mttEntryNew state snap).map fun (entry, state) =>
          let bucket := mttBucketOf snap.ptr state.bucketCount state.hashSeed
          { state with
            buckets := some { table with
              chains := Function.update table.chains bucket
                (entry :: table.chains bucket) }
            counters := state.counters.recorded snap.size.toNat }
      else none

/-- The counters after an entry was removed. -/
def ToolCounters.freed (counters : ToolCounters) (size : Nat)
    (age threshold : Int) : ToolCounters :=
  { counters with
    currentBytes := counters.currentBytes - size
    freeCount := counters.freeCount + 1
    tempAllocCount := counters.tempAllocCount + if age ≤ 1 then 1 else 0
    freeExpiredCount := counters.freeExpiredCount +
      if 0 < threshold ∧ threshold < age then 1 else 0
    entryCount := counters.entryCount - 1 }

/-- The tracked path of the `free` hook; the slot goes back to the list of the
stripe that its own address belongs to. -/
def untrackBlock (state : ToolState) (ptr : Word) (now : Int)
    (slotStripe : Nat) : Option ToolState :=
  match state.buckets with
  | none => none
  | some table =>
      let bucket := mttBucketOf ptr state.bucketCount state.hashSeed
      let isEntry := fun entry : TrackedEntry => entry.snap.ptr == ptr
      match (table.chains bucket).find? isEntry with
      | none => none
      | some entry =>
          if state.initialized ∧ ¬ state.disabled then
            some
              { state with
                buckets := some { table with
                  chains := Function.update table.chains bucket
                    ((table.chains bucket).eraseP isEntry) }
                counters := state.counters.freed entry.snap.size.toNat
                  (now - entry.snap.timestamp)
                  state.settings.leakThresholdSec
                poolUsed := state.poolUsed - entry.slot.toList.length
                poolFreeLists := Function.update state.poolFreeLists slotStripe
                  (entry.slot.toList ++ state.poolFreeLists slotStripe) }
          else none

/-- Stage 1 of the scan walks the buckets stripe by stripe. -/
def snapshot (state : ToolState) : List (MttAllocSnap 64) :=
  match state.buckets with
  | none => []
  | some table =>
      (((List.range mttLockStripes).flatMap fun stripe =>
        (List.range (state.bucketCount / mttLockStripes)).flatMap fun turn =>
          table.chains (stripe + mttLockStripes * turn)).take
            state.counters.entryCount).map TrackedEntry.snap

def scanProcess (state : ToolState) (now : Int) (reportOpens : Bool) :
    ToolState :=
  { state with
    reporter := (scanAndReport state.reporter
      { clock := ⟨now, state.settings.leakThresholdSec⟩
        snaps := snapshot state
        reportOpens }).1 }

def recordPoint (state : ToolState) (time : Int) (rssPages : Option Int)
    (pageSize : Nat) : ToolState :=
  { state with
    series := mttTsRecordPoint state.tsInitialized true state.series
      { time
        currentBytes := state.counters.currentBytes
        peakBytes := state.counters.peakBytes
        allocCount := state.counters.allocCount
        freeCount := state.counters.freeCount
        entryCount := state.counters.entryCount
        leakBytesTotal := state.reporter.leakBytesTotal.toNat
        totalBytes := state.counters.totalBytes
        rssPages
        pageSize } }

/-- What can happen in a process, a fork included. -/
inductive ToolLabel where
  | ensureInit (env : InitEnv)
  | track (snap : MttAllocSnap 64)
  | untrack (ptr : Word) (now : Int) (slotStripe : Nat)
  | scan (now : Int) (reportOpens : Bool)
  | record (time : Int) (rssPages : Option Int) (pageSize : Nat)
  | fork

/-- One step of a chain of processes; a `fork` goes on in the child. -/
def toolNext (state : ToolState) : ToolLabel → Option ToolState
  | .ensureInit env => some (mttEnsureInit env state)
  | .track snap => trackBlock state snap
  | .untrack ptr now slotStripe => untrackBlock state ptr now slotStripe
  | .scan now reportOpens =>
      if state.initialized then some (scanProcess state now reportOpens)
      else none
  | .record time rssPages pageSize =>
      if state.initialized then
        some (recordPoint state time rssPages pageSize)
      else none
  | .fork => mttForkChild state

/-- A chain of processes from a fresh one on. -/
def toolSystem : System ToolState ToolLabel where
  init := fun state => state = .fresh
  next := toolNext

/-! ## The memory of the tool -/

def ToolState.table (state : ToolState) : Option Block :=
  state.buckets.map BucketTable.block

/-- Every raw block obtained for a bucket table or a pool is still in place,
and there is one table, from the initialisation on, and at most one pool. -/
structure OwnsItsMemory (state : ToolState) : Prop where
  tables : ∀ id, .raw id ∈ state.tables → state.table = some (.raw id)
  pools : ∀ id, .raw id ∈ state.pools → state.pool = some (.raw id)
  oneTable : state.tables.length ≤ 1
  hasTable : state.initialized = true →
    state.table.isSome ∧ state.tables.length = 1
  onePool : state.pools.length ≤ 1

/-- One of the allocators gives the table. -/
def InitEnv.obtainsTable (env : InitEnv) : Bool :=
  env.rawCalloc.any CallocAnswers.buckets || env.bootstrapCalloc

/-- An initialisation obtains the first bucket table, or keeps the inherited
one because `raw_calloc` is NULL; and there is no pool yet. -/
def ObtainsMemoryOnce (state : ToolState) : ToolLabel → Prop
  | .ensureInit env =>
      state.initialized = true ∨
        (if state.tables = [] then env.obtainsTable = true
          else env.rawCalloc = none) ∧ state.pools = []
  | _ => True

/-- What else holds of a tool that owns its memory. -/
structure Ledger (state : ToolState) : Prop where
  table : state.table = state.tables.head?
  pool : state.pool = state.pools.head?
  rawPools : ∀ block ∈ state.pools, ∃ id, block = .raw id

/-- What the request for a bucket table comes to. -/
inductive TableOutcome (env : InitEnv) (state later : ToolState) : Prop where
  | obtained (block : Block) (answered : env.obtainsTable = true)
      (replaced : env.rawCalloc ≠ none ∨ state.table = none)
      (table : later.table = some block)
      (tables : later.tables = block :: state.tables)
  | kept (null : env.rawCalloc = none) (present : state.table.isSome)
      (table : later.table = state.table)
      (tables : later.tables = state.tables)
  | failed (refused : env.obtainsTable = false)
      (replaced : env.rawCalloc ≠ none ∨ state.table = none)
      (table : later.table = none) (tables : later.tables = state.tables)

theorem allocateBuckets_outcome (env : InitEnv) (state : ToolState) :
    TableOutcome env state (allocateBuckets env state) := by
  cases calloc : env.rawCalloc with
  | none =>
      cases buckets : state.buckets with
      | some table =>
          apply TableOutcome.kept calloc
          · simp [ToolState.table, buckets]
          · simp [allocateBuckets, calloc, buckets, ToolState.table]
          · simp [allocateBuckets, calloc, buckets]
      | none =>
          have missing : state.table = none := by
            rw [ToolState.table, buckets, Option.map_none]
          cases bootstrap : env.bootstrapCalloc with
          | true =>
              apply TableOutcome.obtained (.bootstrap state.nextBlock) _
                (.inr missing)
              · simp [allocateBuckets, calloc, buckets, bootstrap,
                  ToolState.newTable, ToolState.table]
              · simp [allocateBuckets, calloc, buckets, bootstrap,
                  ToolState.newTable]
              · simp [InitEnv.obtainsTable, bootstrap]
          | false =>
              apply TableOutcome.failed _ (.inr missing)
              · simp [allocateBuckets, calloc, buckets, bootstrap,
                  ToolState.table]
              · simp [allocateBuckets, calloc, buckets, bootstrap]
              · simp [InitEnv.obtainsTable, calloc, bootstrap]
  | some answers =>
      have given : env.rawCalloc ≠ none := by simp [calloc]
      cases granted : answers.buckets with
      | true =>
          apply TableOutcome.obtained (.raw state.nextBlock) _ (.inl given)
          · simp [allocateBuckets, calloc, granted, ToolState.newTable,
              ToolState.table]
          · simp [allocateBuckets, calloc, granted, ToolState.newTable]
          · simp [InitEnv.obtainsTable, calloc, granted]
      | false =>
          cases bootstrap : env.bootstrapCalloc with
          | true =>
              apply TableOutcome.obtained (.bootstrap state.nextBlock) _
                (.inl given)
              · simp [allocateBuckets, calloc, granted, bootstrap,
                  ToolState.newTable, ToolState.table]
              · simp [allocateBuckets, calloc, granted, bootstrap,
                  ToolState.newTable]
              · simp [InitEnv.obtainsTable, bootstrap]
          | false =>
              apply TableOutcome.failed _ (.inl given)
              · simp [allocateBuckets, calloc, granted, bootstrap,
                  ToolState.table]
              · simp [allocateBuckets, calloc, granted, bootstrap]
              · simp [InitEnv.obtainsTable, calloc, granted, bootstrap]

/-- The fields that `allocateBuckets` leaves alone, and the bucket count. -/
structure KeepsPool (state later : ToolState) : Prop where
  pool : later.pool = state.pool
  pools : later.pools = state.pools
  bucketCount : later.bucketCount = mttBuckets

theorem KeepsPool.newTable {state later : ToolState} (block : Block)
    (keeps : KeepsPool state later) :
    KeepsPool state (later.newTable block) :=
  ⟨keeps.pool, keeps.pools, keeps.bucketCount⟩

theorem allocateBuckets_keepsPool (env : InitEnv) (state : ToolState) :
    KeepsPool state (allocateBuckets env state) := by
  have bootstrap : ∀ later, KeepsPool state later →
      KeepsPool state
        (match later.buckets with
        | some _ => later
        | none =>
            if env.bootstrapCalloc then
              later.newTable (.bootstrap later.nextBlock)
            else later) := by
    intro later keeps
    split
    · exact keeps
    · split
      · exact keeps.newTable _
      · exact keeps
  apply bootstrap
  split
  · exact ⟨rfl, rfl, rfl⟩
  · split
    · exact KeepsPool.newTable _ ⟨rfl, rfl, rfl⟩
    · exact ⟨rfl, rfl, rfl⟩

/-- What the request for a pool comes to. -/
inductive PoolOutcome (state later : ToolState) : Prop where
  | obtained (id : Nat) (pool : later.pool = some (.raw id))
      (pools : later.pools = .raw id :: state.pools)
  | failed (pool : later.pool = none) (pools : later.pools = state.pools)

theorem allocatePool_outcome (env : InitEnv) (state : ToolState) :
    PoolOutcome state (allocatePool env state) := by
  by_cases malloc : env.rawMalloc = some true
  · apply PoolOutcome.obtained state.nextBlock <;>
      simp [allocatePool, malloc, ToolState.newPool]
  · by_cases calloc : env.rawCalloc.any CallocAnswers.pool = true
    · apply PoolOutcome.obtained state.nextBlock <;>
        simp [allocatePool, malloc, calloc, ToolState.newPool]
    · apply PoolOutcome.failed <;> simp [allocatePool, malloc, calloc]

theorem allocatePool_table (env : InitEnv) (state : ToolState) :
    (allocatePool env state).buckets = state.buckets ∧
      (allocatePool env state).tables = state.tables ∧
      (allocatePool env state).bucketCount = state.bucketCount := by
  by_cases malloc : env.rawMalloc = some true
  · refine ⟨?_, ?_, ?_⟩ <;> simp [allocatePool, malloc, ToolState.newPool]
  · by_cases calloc : env.rawCalloc.any CallocAnswers.pool = true
    · refine ⟨?_, ?_, ?_⟩ <;> simp [allocatePool, malloc, calloc, ToolState.newPool]
    · refine ⟨?_, ?_, ?_⟩ <;> simp [allocatePool, malloc, calloc]

/-- The fields that make up the memory of the tool. -/
structure SameMemory (state later : ToolState) : Prop where
  table : later.table = state.table
  tables : later.tables = state.tables
  pool : later.pool = state.pool
  pools : later.pools = state.pools
  bucketCount : later.bucketCount = state.bucketCount

theorem SameMemory.ledger {state later : ToolState}
    (same : SameMemory state later) (ledger : Ledger state) :
    Ledger later := by
  constructor
  · rw [same.table, same.tables, ledger.table]
  · rw [same.pool, same.pools, ledger.pool]
  · rw [same.pools]
    exact ledger.rawPools

theorem SameMemory.owns {state later : ToolState}
    (same : SameMemory state later) (owns : OwnsItsMemory state)
    (initialized : later.initialized = true → state.initialized = true) :
    OwnsItsMemory later := by
  constructor
  · rw [same.table, same.tables]
    exact owns.tables
  · rw [same.pool, same.pools]
    exact owns.pools
  · rw [same.tables]
    exact owns.oneTable
  · intro ready
    rw [same.table, same.tables]
    exact owns.hasTable (initialized ready)
  · rw [same.pools]
    exact owns.onePool

theorem TableOutcome.congr {env : InitEnv} {state middle later : ToolState}
    (outcome : TableOutcome env state middle)
    (table : later.table = middle.table)
    (tables : later.tables = middle.tables) :
    TableOutcome env state later := by
  cases outcome with
  | obtained block answered replaced isTable isTables =>
      exact .obtained block answered replaced (table.trans isTable)
        (tables.trans isTables)
  | kept null present isTable isTables =>
      exact .kept null present (table.trans isTable) (tables.trans isTables)
  | failed refused replaced isTable isTables =>
      exact .failed refused replaced (table.trans isTable)
        (tables.trans isTables)

theorem PoolOutcome.congr {state other middle later : ToolState}
    (outcome : PoolOutcome state middle) (before : state.pools = other.pools)
    (pool : later.pool = middle.pool) (pools : later.pools = middle.pools) :
    PoolOutcome other later := by
  cases outcome with
  | obtained id isPool isPools =>
      exact .obtained id (pool.trans isPool)
        ((pools.trans isPools).trans (before ▸ rfl))
  | failed isPool isPools =>
      exact .failed (pool.trans isPool) ((pools.trans isPools).trans before)

theorem mttTsInitOnce_sameMemory (state : ToolState) :
    SameMemory state (mttTsInitOnce state) := by
  unfold mttTsInitOnce
  split <;> exact ⟨rfl, rfl, rfl, rfl, rfl⟩

theorem mttTsInitOnce_initialized (state : ToolState) :
    (mttTsInitOnce state).initialized = state.initialized := by
  unfold mttTsInitOnce
  split <;> rfl

/-- What an initialisation does to the memory: without a table it stops, with
one it replaces the pool. -/
theorem mttEnsureInit_outcome (env : InitEnv) {state : ToolState}
    (pending : state.initialized = false) :
    (mttEnsureInit env state).initialized = true ∧
      TableOutcome env state (mttEnsureInit env state) ∧
      ((mttEnsureInit env state).table = none ∨
        PoolOutcome state (mttEnsureInit env state)) := by
  have outcome := allocateBuckets_outcome env state
  have keeps := allocateBuckets_keepsPool env state
  unfold mttEnsureInit
  rw [pending, if_neg Bool.false_ne_true]
  cases buckets : (allocateBuckets env state).buckets with
  | none =>
      refine ⟨rfl, outcome.congr rfl rfl, .inl ?_⟩
      exact Option.map_eq_none_iff.mpr buckets
  | some table =>
      let seeded := seedHash env (allocateBuckets env state)
      have pooled := allocatePool_outcome env seeded
      obtain ⟨sameBuckets, sameTables, _⟩ := allocatePool_table env seeded
      have same := mttTsInitOnce_sameMemory
        (storeSettings env (allocatePool env seeded))
      refine ⟨?_, ?_, .inr ?_⟩
      · exact mttTsInitOnce_initialized _
      · apply outcome.congr
        · exact same.table.trans (congrArg (Option.map _) sameBuckets)
        · exact same.tables.trans sameTables
      · exact pooled.congr keeps.pools same.pool same.pools

theorem mttEnsureInit_bucketCount (env : InitEnv) {state : ToolState}
    (pending : state.initialized = false) :
    (mttEnsureInit env state).bucketCount = mttBuckets := by
  have keeps := allocateBuckets_keepsPool env state
  unfold mttEnsureInit
  rw [pending, if_neg Bool.false_ne_true]
  cases buckets : (allocateBuckets env state).buckets with
  | none => exact keeps.bucketCount
  | some table =>
      have pooled := allocatePool_table env
        (seedHash env (allocateBuckets env state))
      have same := mttTsInitOnce_sameMemory (storeSettings env
        (allocatePool env (seedHash env (allocateBuckets env state))))
      exact same.bucketCount.trans (pooled.2.2.trans keeps.bucketCount)

theorem mttEnsureInit_done (env : InitEnv) {state : ToolState}
    (done : state.initialized = true) : mttEnsureInit env state = state := by
  rw [mttEnsureInit, if_pos done]

theorem Ledger.tables_eq_nil_iff {state : ToolState} (ledger : Ledger state) :
    state.tables = [] ↔ state.table = none := by
  rw [ledger.table, List.head?_eq_none_iff]

theorem PoolOutcome.owned_iff {state later : ToolState}
    (outcome : PoolOutcome state later) (ledger : Ledger state) :
    ((∀ id, .raw id ∈ later.pools → later.pool = some (.raw id)) ∧
      later.pools.length ≤ 1) ↔ state.pools = [] := by
  constructor
  · intro owns
    obtain ⟨owned, one⟩ := owns
    by_contra some
    obtain ⟨block, member⟩ := List.exists_mem_of_ne_nil _ some
    obtain ⟨id, rfl⟩ := ledger.rawPools block member
    cases outcome with
    | obtained new pool pools =>
        rw [pools, List.length_cons] at one
        have before := List.length_pos_of_mem member
        omega
    | failed pool pools =>
        rw [← pools] at member
        have present := owned id member
        rw [pool] at present
        cases present
  · intro none
    cases outcome with
    | obtained new pool pools =>
        rw [pools, none]
        refine ⟨?_, Nat.le_refl 1⟩
        intro id member
        rw [List.mem_singleton] at member
        rw [pool, member]
    | failed pool pools =>
        rw [pools, none]
        refine ⟨?_, Nat.zero_le 1⟩
        intro id member
        cases member

theorem TableOutcome.owned_iff {env : InitEnv} {state later : ToolState}
    (outcome : TableOutcome env state later) (ledger : Ledger state)
    (owns : OwnsItsMemory state) :
    ((∀ id, .raw id ∈ later.tables → later.table = some (.raw id)) ∧
      later.table.isSome ∧ later.tables.length = 1) ↔
    if state.tables = [] then env.obtainsTable = true
    else env.rawCalloc = none := by
  have nil_iff := ledger.tables_eq_nil_iff
  cases outcome with
  | obtained block answered replaced table tables =>
      rw [table, tables]
      split
      · rename_i none
        rw [none]
        constructor
        · exact fun _ => answered
        · intro _
          refine ⟨?_, rfl, rfl⟩
          intro id member
          rw [List.mem_singleton] at member
          rw [member]
      · rename_i some
        constructor
        · intro owned
          obtain ⟨-, -, one⟩ := owned
          rw [List.length_cons] at one
          exact (some (List.length_eq_zero_iff.mp (by omega))).elim
        · intro null
          rcases replaced with given | missing
          · exact (given null).elim
          · exact (some (nil_iff.mpr missing)).elim
  | kept null present table tables =>
      rw [table, tables, if_neg]
      · constructor
        · exact fun _ => null
        · intro _
          refine ⟨owns.tables, present, ?_⟩
          have bound := owns.oneTable
          rw [ledger.table] at present
          cases blocks : state.tables with
          | nil =>
              rw [blocks] at present
              cases present
          | cons block rest =>
              rw [blocks, List.length_cons] at bound
              rw [List.length_cons]
              omega
      · intro none
        rw [nil_iff.mp none] at present
        cases present
  | failed refused replaced table tables =>
      rw [table]
      constructor
      · intro owned
        obtain ⟨-, present, -⟩ := owned
        cases present
      · split
        · intro answered
          rw [refused] at answered
          cases answered
        · rename_i some
          intro null
          rcases replaced with given | missing
          · exact (given null).elim
          · exact (some (nil_iff.mpr missing)).elim

theorem mttEnsureInit_owns_iff (env : InitEnv) {state : ToolState}
    (pending : state.initialized = false) (ledger : Ledger state)
    (owns : OwnsItsMemory state) :
    OwnsItsMemory (mttEnsureInit env state) ↔
      (if state.tables = [] then env.obtainsTable = true
        else env.rawCalloc = none) ∧ state.pools = [] := by
  obtain ⟨ready, tableOutcome, rest⟩ := mttEnsureInit_outcome env pending
  rw [← tableOutcome.owned_iff ledger owns]
  rcases rest with missing | poolOutcome
  · constructor
    · intro later
      have present := (later.hasTable ready).1
      rw [missing] at present
      cases present
    · intro once
      obtain ⟨⟨-, present, -⟩, -⟩ := once
      rw [missing] at present
      cases present
  · rw [← poolOutcome.owned_iff ledger]
    constructor
    · intro later
      exact ⟨⟨later.tables, later.hasTable ready⟩, later.pools, later.onePool⟩
    · intro once
      obtain ⟨⟨tables, hasTable⟩, pools, onePool⟩ := once
      exact ⟨tables, pools, Nat.le_of_eq hasTable.2, fun _ => hasTable,
        onePool⟩

theorem PoolOutcome.ledger {state later : ToolState}
    (outcome : PoolOutcome state later) (none : state.pools = []) :
    later.pool = later.pools.head? ∧
      ∀ block ∈ later.pools, ∃ id, block = .raw id := by
  cases outcome with
  | obtained id pool pools =>
      rw [pool, pools, none]
      refine ⟨rfl, ?_⟩
      intro block member
      exact ⟨id, List.mem_singleton.mp member⟩
  | failed pool pools =>
      rw [pool, pools, none]
      refine ⟨rfl, ?_⟩
      intro block member
      cases member

theorem TableOutcome.ledger {env : InitEnv} {state later : ToolState}
    (outcome : TableOutcome env state later) (ledger : Ledger state)
    (present : later.table.isSome) : later.table = later.tables.head? := by
  cases outcome with
  | obtained block answered replaced table tables =>
      rw [table, tables, List.head?_cons]
  | kept null present table tables => rw [table, tables, ledger.table]
  | failed refused replaced table tables =>
      rw [table] at present
      cases present

theorem mttEnsureInit_ledger (env : InitEnv) {state : ToolState}
    (pending : state.initialized = false) (ledger : Ledger state)
    (owns : OwnsItsMemory state)
    (once : (if state.tables = [] then env.obtainsTable = true
      else env.rawCalloc = none) ∧ state.pools = []) :
    Ledger (mttEnsureInit env state) := by
  obtain ⟨ready, tableOutcome, rest⟩ := mttEnsureInit_outcome env pending
  have later := (mttEnsureInit_owns_iff env pending ledger owns).mpr once
  have present := (later.hasTable ready).1
  rcases rest with missing | poolOutcome
  · rw [missing] at present
    cases present
  · obtain ⟨pool, rawPools⟩ := poolOutcome.ledger once.2
    exact ⟨tableOutcome.ledger ledger present, pool, rawPools⟩

theorem SameMemory.of_chains {state later : ToolState}
    {table : BucketTable} {chains : Nat → List TrackedEntry}
    (before : state.buckets = some table)
    (after : later.buckets = some { table with chains })
    (tables : later.tables = state.tables) (pool : later.pool = state.pool)
    (pools : later.pools = state.pools)
    (bucketCount : later.bucketCount = state.bucketCount) :
    SameMemory state later := by
  refine ⟨?_, tables, pool, pools, bucketCount⟩
  rw [ToolState.table, ToolState.table, before, after]
  rfl

theorem trackBlock_sameMemory {state later : ToolState}
    {snap : MttAllocSnap 64} (taken : trackBlock state snap = some later) :
    SameMemory state later ∧ later.initialized = state.initialized := by
  simp only [trackBlock] at taken
  split at taken
  · cases taken
  · rename_i table buckets
    split at taken
    · obtain ⟨⟨entry, middle⟩, made, rfl⟩ :=
        Option.map_eq_some_iff.mp taken
      simp only [mttEntryNew] at made
      split at made
      · obtain ⟨⟨slot, lists⟩, _, made⟩ := Option.map_eq_some_iff.mp made
        cases made
        exact ⟨.of_chains buckets rfl rfl rfl rfl rfl, rfl⟩
      · cases made
        exact ⟨.of_chains buckets rfl rfl rfl rfl rfl, rfl⟩
    · cases taken

theorem untrackBlock_sameMemory {state later : ToolState} {ptr : Word}
    {now : Int} {slotStripe : Nat}
    (taken : untrackBlock state ptr now slotStripe = some later) :
    SameMemory state later ∧ later.initialized = state.initialized := by
  simp only [untrackBlock] at taken
  split at taken
  · cases taken
  · rename_i table buckets
    split at taken
    · cases taken
    · split at taken
      · cases taken
        exact ⟨.of_chains buckets rfl rfl rfl rfl rfl, rfl⟩
      · cases taken

theorem mttForkChild_sameMemory {state later : ToolState}
    (taken : mttForkChild state = some later) :
    SameMemory state later ∧ later.initialized = false := by
  simp only [mttForkChild] at taken
  split at taken
  · rename_i table buckets
    cases taken
    exact ⟨.of_chains buckets rfl rfl rfl rfl rfl, rfl⟩
  · split at taken
    · cases taken
      exact ⟨⟨rfl, rfl, rfl, rfl, rfl⟩, rfl⟩
    · cases taken

theorem toolNext_sameMemory {state later : ToolState} {label : ToolLabel}
    (other : ∀ env, label ≠ .ensureInit env)
    (taken : toolNext state label = some later) :
    SameMemory state later ∧
      (later.initialized = true → state.initialized = true) := by
  cases label with
  | ensureInit env => exact (other env rfl).elim
  | track snap =>
      obtain ⟨same, initialized⟩ := trackBlock_sameMemory taken
      exact ⟨same, fun ready => initialized.symm.trans ready⟩
  | untrack ptr now slotStripe =>
      obtain ⟨same, initialized⟩ := untrackBlock_sameMemory taken
      exact ⟨same, fun ready => initialized.symm.trans ready⟩
  | scan now reportOpens =>
      simp only [toolNext] at taken
      split at taken
      · cases taken
        exact ⟨⟨rfl, rfl, rfl, rfl, rfl⟩, id⟩
      · cases taken
  | record time rssPages pageSize =>
      simp only [toolNext] at taken
      split at taken
      · cases taken
        exact ⟨⟨rfl, rfl, rfl, rfl, rfl⟩, id⟩
      · cases taken
  | fork =>
      obtain ⟨same, initialized⟩ := mttForkChild_sameMemory taken
      refine ⟨same, ?_⟩
      intro ready
      rw [initialized] at ready
      cases ready

theorem fresh_ledger : Ledger .fresh :=
  ⟨rfl, rfl, fun _ member => nomatch member⟩

theorem fresh_owns : OwnsItsMemory .fresh := by
  constructor
  · exact fun _ member => nomatch member
  · exact fun _ member => nomatch member
  · exact Nat.zero_le 1
  · exact fun ready => nomatch ready
  · exact Nat.zero_le 1

theorem toolNext_owns_iff {state later : ToolState} {label : ToolLabel}
    (ledger : Ledger state) (owns : OwnsItsMemory state)
    (taken : toolNext state label = some later) :
    (OwnsItsMemory later ↔ ObtainsMemoryOnce state label) ∧
      (ObtainsMemoryOnce state label → Ledger later) := by
  by_cases initialises : ∃ env, label = .ensureInit env
  · obtain ⟨env, rfl⟩ := initialises
    simp only [toolNext, Option.some.injEq] at taken
    subst taken
    cases ready : state.initialized with
    | true =>
        rw [mttEnsureInit_done env ready]
        have once : ObtainsMemoryOnce state (.ensureInit env) := .inl ready
        exact ⟨iff_of_true owns once, fun _ => ledger⟩
    | false =>
        have once_iff : ObtainsMemoryOnce state (.ensureInit env) ↔
            (if state.tables = [] then env.obtainsTable = true
              else env.rawCalloc = none) ∧ state.pools = [] := by
          simp [ObtainsMemoryOnce, ready]
        rw [once_iff]
        exact ⟨mttEnsureInit_owns_iff env ready ledger owns,
          mttEnsureInit_ledger env ready ledger owns⟩
  · have other : ∀ env, label ≠ .ensureInit env :=
      fun env same => initialises ⟨env, same⟩
    obtain ⟨same, kept⟩ := toolNext_sameMemory other taken
    have once : ObtainsMemoryOnce state label := by
      cases label with
      | ensureInit env => exact (other env rfl).elim
      | track | untrack | scan | record | fork => exact trivial
    exact ⟨iff_of_true (same.owns owns kept) once, fun _ => same.ledger ledger⟩

/-- Along a chain of processes the tool owns its memory exactly as long as
every initialisation obtains it for the first time. -/
theorem ownsItsMemory_iff_obtainsOnce (labels : List ToolLabel) :
    (∀ state ∈ toolSystem.visited .fresh labels, OwnsItsMemory state) ↔
      toolSystem.Meets ObtainsMemoryOnce .fresh labels := by
  have preserved : ∀ state label target, Ledger state →
      OwnsItsMemory state → ObtainsMemoryOnce state label →
      toolSystem.next state label = some target → Ledger target := by
    intro state label target ledger owns once taken
    exact (toolNext_owns_iff ledger owns taken).2 once
  have decided : ∀ state label target, Ledger state →
      OwnsItsMemory state → toolSystem.next state label = some target →
      (OwnsItsMemory target ↔ ObtainsMemoryOnce state label) := by
    intro state label target ledger owns taken
    exact (toolNext_owns_iff ledger owns taken).1
  exact System.forall_visited_iff_meets preserved decided fresh_ledger
    fresh_owns labels

/-- An environment without settings whose allocations all succeed. -/
def plainEnv : InitEnv :=
  { wantPoolEntries := 64
    wantSample := 0
    wantSrate := 0
    wantDisabled := false
    wantLeakThreshold := 60
    wantDebug := 0
    wantSkipStartup := 0
    time := 100
    pid := 7
    rawCalloc := some ⟨true, true⟩
    bootstrapCalloc := true
    rawMalloc := some true
    blacklistSelfMatch := false }

/-- The child of an initialised process allocates a second table and a second
pool. -/
theorem ownsItsMemory_fails_inChild :
    ¬ ∀ labels : List ToolLabel,
      ∀ state ∈ toolSystem.visited .fresh labels, OwnsItsMemory state := by
  intro claimed
  have single := (claimed [.ensureInit plainEnv, .fork, .ensureInit plainEnv]
    _ (List.getLast_mem (by simp [System.visited]))).oneTable
  exact absurd single (by decide)

end MemoryTraceTool.ForkChild
