import MemoryTraceTool.ChildReport
import MemoryTraceTool.Environment
import MemoryTraceTool.Lib.OnceUnlocked

/-!
# The stores of mtt_ensure_init

Most of what `mtt_ensure_init` writes it writes under `g_init_lock`, the flag
`initialized` last.  Some settings are stored without the lock: the debug level
by every call, the others by every call that finds the flag unset.
-/

namespace MemoryTraceTool.InitOnce

open Environment ForkChild Once Transition

/-! ## The stores under the lock -/

/-- What a call finds outside the tool. -/
structure Found where
  environ : Env
  time : Int
  pid : Nat
  rawCalloc : Option CallocAnswers
  bootstrapCalloc : Bool
  rawMalloc : Option Bool
  blacklistSelfMatch : Bool

/-- What the initialisation finds, from the settings and the answers of the
allocators. -/
def initEnv (settings : Settings) (found : Found) : InitEnv where
  wantPoolEntries := settings.poolEntries
  wantSample := settings.sample.toNat
  wantSrate := settings.sampleRate.toNat
  wantDisabled := settings.disabled
  wantLeakThreshold := settings.leakThreshold
  wantDebug := settings.debug
  wantSkipStartup := settings.skipStartup
  time := found.time
  pid := found.pid
  rawCalloc := found.rawCalloc
  bootstrapCalloc := found.bootstrapCalloc
  rawMalloc := found.rawMalloc
  blacklistSelfMatch := found.blacklistSelfMatch

section Stores

variable (env : InitEnv)

/-- `raw_calloc` for the buckets. -/
def rawBuckets (state : ToolState) : ToolState :=
  match env.rawCalloc with
  | none => state
  | some answers =>
      if answers.buckets then state.newTable (.raw state.nextBlock)
      else { state with buckets := none }

/-- The stores that set up the bucket table. -/
def bucketStores : List (ToolState → ToolState) :=
  [fun state => { state with bucketCount := mttBuckets },
    rawBuckets env,
    bootstrapBuckets env]

def clearFreeList (index : Nat) (state : ToolState) : ToolState :=
  { state with poolFreeLists := Function.update state.poolFreeLists index [] }

def pushFreeSlot (slot : Nat) (state : ToolState) : ToolState :=
  { state with
    poolFreeLists :=
      Function.update state.poolFreeLists (slot % mttLockStripes)
        (slot :: state.poolFreeLists (slot % mttLockStripes)) }

/-- `raw_malloc` for the pool. -/
def rawMallocPool (state : ToolState) : ToolState :=
  if env.rawMalloc = some true then state.newPool (.raw state.nextBlock)
  else state

/-- `raw_calloc` for the pool, if that failed. -/
def rawCallocPool (state : ToolState) : ToolState :=
  if state.pool.isNone && env.rawCalloc.any CallocAnswers.pool then
    state.newPool (.raw state.nextBlock)
  else state

/-- The last of them depend on whether there is a pool by then. -/
def poolStores : List (ToolState → ToolState) :=
  [fun state => { state with poolCapacity := env.wantPoolEntries },
    fun state => { state with pool := none },
    fun state => { state with poolUsed := 0 },
    fun state => { state with poolMode := .none }] ++
  (List.range mttLockStripes).map clearFreeList ++
  [rawMallocPool env, rawCallocPool env] ++
  if env.obtainsPool then
    (List.range env.wantPoolEntries).map pushFreeSlot ++
      [fun state => { state with poolMode := .active }]
  else
    [fun state => { state with poolCapacity := 0 },
      fun state => { state with poolMode := .fallback }]

def setCounters (change : ToolCounters → ToolCounters) (state : ToolState) :
    ToolState :=
  { state with counters := change state.counters }

def setSettings (change : ToolSettings → ToolSettings) (state : ToolState) :
    ToolState :=
  { state with settings := change state.settings }

/-- The counters are cleared and the settings stored. -/
def settingStores : List (ToolState → ToolState) :=
  [setCounters fun counters => { counters with allocSeq := 0 },
    setCounters fun counters => { counters with allocCount := 0 },
    setCounters fun counters => { counters with freeCount := 0 },
    setCounters fun counters => { counters with currentBytes := 0 },
    setCounters fun counters => { counters with peakBytes := 0 },
    setCounters fun counters => { counters with totalBytes := 0 },
    setCounters fun counters => { counters with skippedSampled := 0 },
    setCounters fun counters => { counters with skippedOvercap := 0 },
    setSettings fun settings =>
      { settings with samplePeriod := env.wantSample },
    setCounters fun counters => { counters with sampleCounter := 0 },
    setSettings fun settings =>
      { settings with sampleRate := env.wantSrate },
    setCounters fun counters => { counters with sampleBytesAccum := 0 },
    setCounters fun counters => { counters with entryCount := 0 },
    fun state => { state with disabled := env.wantDisabled },
    setCounters fun counters => { counters with peakUpdated := false },
    setSettings fun settings =>
      { settings with leakThresholdSec := env.wantLeakThreshold },
    setCounters fun counters => { counters with tempAllocCount := 0 },
    fun state =>
      { state with reporter := { state.reporter with expiredAllocCount := 0 } },
    setCounters fun counters => { counters with freeExpiredCount := 0 },
    setSettings fun settings => { settings with debugLevel := env.wantDebug },
    setSettings fun settings =>
      { settings with
        startupUntil :=
          if 0 < env.wantSkipStartup then env.time + env.wantSkipStartup
          else 0 },
    fun state =>
      if env.blacklistSelfMatch then { state with disabled := true }
      else state]

/-- Without a bucket table the tool is only disabled. -/
def initStores : List (ToolState → ToolState) :=
  bucketStores env ++
  match (applyAll .fresh (bucketStores env)).buckets with
  | none => [fun state => { state with disabled := true }]
  | some _ => seedHash env :: poolStores env ++ settingStores env

end Stores

/-! ## The stores without the lock -/

/-- The memory of the tool with the settings that `ToolState` leaves out;
`libBlacklist` is the array. -/
structure InitMemory where
  tool : ToolState
  libBlacklist : Nat → UInt8
  libBlacklistReady : Bool
  unwinderMode : UnwinderMode
  maxStackFrames : Int

/-- Static memory before the first call. -/
def InitMemory.initial : InitMemory :=
  { tool := .fresh
    libBlacklist := fun _ => 0
    libBlacklistReady := false
    unwinderMode := .auto
    maxStackFrames := 64 }

/-- A store that threads make outside `g_init_lock`. -/
inductive LooseStore where
  | debug (level : Int)
  | byte (index : Nat) (value : UInt8)
  | ready (value : Bool)
  | unwinder (mode : UnwinderMode)
  | frames (count : Int)

def LooseStore.apply (store : LooseStore) (memory : InitMemory) :
    InitMemory :=
  match store with
  | .debug level =>
      { memory with
        tool := setSettings
          (fun settings => { settings with debugLevel := level })
          memory.tool }
  | .byte index value =>
      { memory with
        libBlacklist := Function.update memory.libBlacklist index value }
  | .ready value => { memory with libBlacklistReady := value }
  | .unwinder mode => { memory with unwinderMode := mode }
  | .frames count => { memory with maxStackFrames := count }

/-- The debug level, before anything else. -/
def earlyStores (env : Env) : List LooseStore := [.debug (wantDebug env)]

/-- `memcpy` into `lib_blacklist`, the terminator and the flag. -/
def blacklistStores (env : Env) : List LooseStore :=
  match wantLibBlacklist env with
  | some text =>
      (text.zipIdx.map fun (byte, index) => .byte index byte) ++
        [.byte text.length 0, .ready true]
  | none => [.byte 0 0, .ready false]

/-- The other settings that are stored while the environment is read; the
unwinder and the number of frames only if they are set. -/
def looseStores (env : Env) : List LooseStore :=
  blacklistStores env ++
    (match env "MTT_UNWINDER" with
      | some _ => [.unwinder (wantUnwinder env)]
      | none => []) ++
    match inRange env "MTT_MAX_STACK_FRAMES" 1 64 with
    | some count => [.frames count]
    | none => []

def onTool (store : ToolState → ToolState) (memory : InitMemory) :
    InitMemory :=
  { memory with tool := store memory.tool }

/-! ## Any number of calls -/

/-- What is started after the lock was given back; the server takes its port
from the environment that its thread finds then. -/
inductive Service where
  | timeSeries
  | reporter
  | http
  | signals
  deriving DecidableEq, Repr

/-- What `mtt_ensure_init` starts once the flag is set. -/
def backgroundServices (config : ToolState) : List Service :=
  match config.buckets with
  | none => []
  | some _ =>
      .timeSeries ::
        if config.disabled then [] else [.reporter, .http, .signals]

/-- What the stores under the lock start from. -/
def performedEnv (entrySize : Nat) (read found : Found) : InitEnv :=
  initEnv (readSettings read.environ entrySize) found

/-- `mtt_ensure_init` as stores before, under and after the lock. -/
def initRecipe (entrySize : Nat) : Recipe InitMemory Found Service where
  start := .initial
  early := fun found => (earlyStores found.environ).map LooseStore.apply
  prepare := fun found => (looseStores found.environ).map LooseStore.apply
  stores := fun read found =>
    (initStores (performedEnv entrySize read found)).map onTool
  services := fun memory => backgroundServices memory.tool

/-- Any threads in `mtt_ensure_init`; the flag is `initialized`, the lock
`g_init_lock`. -/
def initSystem (Thread : Type) [DecidableEq Thread] (entrySize : Nat) :
    System (Once.State Thread InitMemory Found Service)
      (Label Thread Found) :=
  system (initRecipe entrySize)

/-! ## All stores together -/

theorem applyAll_clearFreeList (state : ToolState) (indices : List Nat)
    (empty : state.poolFreeLists = fun _ => []) :
    applyAll state (indices.map clearFreeList) = state := by
  induction indices with
  | nil => rfl
  | cons index indices induction =>
      have cleared : clearFreeList index state = state := by
        cases state
        simp only at empty
        simp [clearFreeList, empty]
      rw [List.map_cons, applyAll_cons, cleared]
      exact induction

theorem applyAll_pushFreeSlot (slots : List Nat) (state : ToolState) :
    applyAll state (slots.map pushFreeSlot) =
      { state with
        poolFreeLists :=
          slots.foldl (fun lists slot =>
            Function.update lists (slot % mttLockStripes)
              (slot :: lists (slot % mttLockStripes)))
            state.poolFreeLists } := by
  induction slots generalizing state with
  | nil => rfl
  | cons slot slots induction =>
      rw [List.map_cons, applyAll_cons]
      exact induction (pushFreeSlot slot state)

theorem applyAll_bucketStores (env : InitEnv) (state : ToolState) :
    applyAll state (bucketStores env) = allocateBuckets env state := rfl

theorem applyAll_poolStores (env : InitEnv) {state : ToolState}
    (empty : state.poolFreeLists = fun _ => []) :
    applyAll state (poolStores env) = allocatePool env state := by
  have noLists : { state with poolFreeLists := fun _ => [] } = state := by
    cases state
    simp only at empty
    rw [empty]
  rw [← noLists]
  unfold poolStores
  rw [applyAll_append, applyAll_append, applyAll_append,
    applyAll_clearFreeList]
  · by_cases malloc : env.rawMalloc = some true
    · have obtained : env.obtainsPool = true := by
        simp [InitEnv.obtainsPool, malloc]
      rw [if_pos obtained, applyAll_append, applyAll_pushFreeSlot]
      simp [applyAll, allocatePool, malloc, rawMallocPool, rawCallocPool,
        ToolState.newPool, fillFreeLists]
    · by_cases calloc : env.rawCalloc.any CallocAnswers.pool = true
      · have obtained : env.obtainsPool = true := by
          simp [InitEnv.obtainsPool, calloc]
        rw [if_pos obtained, applyAll_append, applyAll_pushFreeSlot]
        simp [applyAll, allocatePool, malloc, calloc, rawMallocPool,
          rawCallocPool, ToolState.newPool, fillFreeLists]
      · have refused : ¬ env.obtainsPool = true := by
          simp [InitEnv.obtainsPool, malloc, calloc]
        rw [if_neg refused]
        simp [applyAll, allocatePool, malloc, calloc, rawMallocPool,
          rawCallocPool]
  · rfl

theorem applyAll_settingStores (env : InitEnv) (state : ToolState) :
    { applyAll state (settingStores env) with initialized := true } =
      storeSettings env state := by
  cases matched : env.blacklistSelfMatch with
  | false =>
      simp [settingStores, applyAll, storeSettings, setCounters, setSettings,
        matched, ToolCounters.zero]
  | true =>
      simp [settingStores, applyAll, storeSettings, setCounters, setSettings,
        matched, ToolCounters.zero]

/-- What remains of `mtt_ensure_init` after the stores. -/
def finish (state : ToolState) : ToolState :=
  match state.buckets with
  | none => { state with initialized := true }
  | some _ => mttTsInitOnce { state with initialized := true }

theorem allocateBuckets_poolFreeLists (env : InitEnv) :
    (allocateBuckets env .fresh).poolFreeLists = fun _ => [] := by
  obtain ⟨buckets, nextBlock, tables, shape⟩ :=
    allocateBuckets_shape env .fresh
  rw [shape]
  rfl

theorem applyAll_initStores (env : InitEnv) :
    { applyAll .fresh (initStores env) with initialized := true } =
      match (allocateBuckets env .fresh).buckets with
      | none =>
          { allocateBuckets env .fresh with
            disabled := true
            initialized := true }
      | some _ =>
          storeSettings env (allocatePool env
            (seedHash env (allocateBuckets env .fresh))) := by
  unfold initStores
  rw [applyAll_append, applyAll_bucketStores]
  cases table : (allocateBuckets env .fresh).buckets with
  | none => rfl
  | some buckets =>
      dsimp only
      rw [List.cons_append, applyAll_cons, applyAll_append,
        applyAll_poolStores, applyAll_settingStores]
      exact allocateBuckets_poolFreeLists env

theorem finish_applyAll_initStores (env : InitEnv) :
    finish (applyAll .fresh (initStores env)) =
      ForkChild.mttEnsureInit env .fresh := by
  have fresh : ToolState.fresh.initialized = false := rfl
  have stored := applyAll_initStores env
  have table := congrArg ToolState.buckets stored
  unfold ForkChild.mttEnsureInit finish
  rw [fresh, if_neg Bool.false_ne_true, stored]
  cases obtained : (allocateBuckets env .fresh).buckets with
  | none =>
      rw [obtained] at table
      dsimp only at table ⊢
      rw [table, obtained]
  | some buckets =>
      rw [obtained] at table
      dsimp only at table ⊢
      have kept : (storeSettings env (allocatePool env
          (seedHash env (allocateBuckets env .fresh)))).buckets =
          some buckets :=
        (allocatePool_table env _).1.trans obtained
      rw [table, kept]

/-! ## What the lock protects -/

/-- All that only the stores under the lock write. -/
def withoutDebug (state : ToolState) : ToolState :=
  setSettings (fun settings => { settings with debugLevel := 0 }) state

/-- A store that does not look at the debug level, and either leaves it alone
or writes the level that was read. -/
structure Level (level : Int) (store : ToolState → ToolState) : Prop where
  blind : ∀ state,
    withoutDebug (store (withoutDebug state)) = withoutDebug (store state)
  writes : ∀ state : ToolState,
    (store state).settings.debugLevel = state.settings.debugLevel ∨
      (store state).settings.debugLevel = level

theorem Level.keeps {level : Int} {store : ToolState → ToolState}
    (blind : ∀ state,
      withoutDebug (store (withoutDebug state)) = withoutDebug (store state))
    (keeps : ∀ state, (store state).settings = state.settings) :
    Level level store :=
  ⟨blind, fun state => .inl (congrArg ToolSettings.debugLevel (keeps state))⟩

theorem level_rawBuckets (env : InitEnv) (level : Int) :
    Level level (rawBuckets env) := by
  apply Level.keeps
  · intro state
    unfold rawBuckets
    split
    · rfl
    · split <;> rfl
  · intro state
    unfold rawBuckets
    split
    · rfl
    · split <;> rfl

theorem level_bootstrapBuckets (env : InitEnv) (level : Int) :
    Level level (bootstrapBuckets env) := by
  apply Level.keeps
  · intro state
    unfold bootstrapBuckets
    have same : (withoutDebug state).buckets = state.buckets := rfl
    rw [same]
    cases state.buckets with
    | some table => rfl
    | none => cases env.bootstrapCalloc <;> rfl
  · intro state
    unfold bootstrapBuckets
    split
    · rfl
    · split <;> rfl

theorem level_rawMallocPool (env : InitEnv) (level : Int) :
    Level level (rawMallocPool env) := by
  apply Level.keeps
  · intro state
    unfold rawMallocPool
    split <;> rfl
  · intro state
    unfold rawMallocPool
    split <;> rfl

theorem level_rawCallocPool (env : InitEnv) (level : Int) :
    Level level (rawCallocPool env) := by
  apply Level.keeps
  · intro state
    unfold rawCallocPool
    have same : (withoutDebug state).pool = state.pool := rfl
    rw [same]
    split <;> rfl
  · intro state
    unfold rawCallocPool
    split <;> rfl

theorem level_poolStores (env : InitEnv) (level : Int)
    {store : ToolState → ToolState} (member : store ∈ poolStores env) :
    Level level store := by
  simp only [poolStores, List.mem_append, List.mem_cons, List.mem_map,
    List.not_mem_nil, or_false] at member
  obtain ((initial | cleared) | obtained) | last := member
  · obtain rfl | rfl | rfl | rfl := initial <;>
      exact .keeps (fun _ => rfl) fun _ => rfl
  · obtain ⟨index, -, rfl⟩ := cleared
    exact .keeps (fun _ => rfl) fun _ => rfl
  · obtain rfl | rfl := obtained
    · exact level_rawMallocPool env level
    · exact level_rawCallocPool env level
  · split at last
    · simp only [List.mem_append, List.mem_map, List.mem_singleton] at last
      obtain ⟨slot, -, rfl⟩ | rfl := last <;>
        exact .keeps (fun _ => rfl) fun _ => rfl
    · simp only [List.mem_cons, List.not_mem_nil, or_false] at last
      obtain rfl | rfl := last <;>
        exact .keeps (fun _ => rfl) fun _ => rfl

theorem level_selfMatch (env : InitEnv) (level : Int) :
    Level level fun state =>
      if env.blacklistSelfMatch then { state with disabled := true }
      else state := by
  apply Level.keeps
  · intro state
    split <;> rfl
  · intro state
    split <;> rfl

theorem level_settingStores (env : InitEnv)
    {store : ToolState → ToolState} (member : store ∈ settingStores env) :
    Level env.wantDebug store := by
  simp only [settingStores, List.mem_cons, List.not_mem_nil,
    or_false] at member
  obtain rfl | rfl | rfl | rfl | rfl | rfl | rfl | rfl | rfl | rfl | rfl |
    rfl | rfl | rfl | rfl | rfl | rfl | rfl | rfl | rfl | rfl | rfl := member
  all_goals
    first
    | exact ⟨fun _ => rfl, fun _ => .inl rfl⟩
    | exact ⟨fun _ => rfl, fun _ => .inr rfl⟩
    | exact level_selfMatch env _

theorem level_initStores (env : InitEnv) {store : ToolState → ToolState}
    (member : store ∈ initStores env) : Level env.wantDebug store := by
  rcases List.mem_append.mp member with bucket | later
  · simp only [bucketStores, List.mem_cons, List.not_mem_nil,
      or_false] at bucket
    obtain rfl | rfl | rfl := bucket
    · exact .keeps (fun _ => rfl) fun _ => rfl
    · exact level_rawBuckets env _
    · exact level_bootstrapBuckets env _
  · split at later
    · obtain rfl := List.mem_singleton.mp later
      exact .keeps (fun _ => rfl) fun _ => rfl
    · rw [List.cons_append, List.mem_cons, List.mem_append] at later
      obtain rfl | pool | setting := later
      · exact .keeps (fun _ => rfl) fun _ => rfl
      · exact level_poolStores env _ pool
      · exact level_settingStores env setting

/-- The memory but for what the loose stores write. -/
def core (memory : InitMemory) : ToolState := withoutDebug memory.tool

theorem core_apply (store : LooseStore) (memory : InitMemory) :
    core (store.apply memory) = core memory := by
  cases store <;> rfl

/-- The lock protects everything but the debug level and the settings that are
stored without it. -/
theorem separate (entrySize : Nat) : Separate (initRecipe entrySize) core where
  early := by
    intro found store member memory
    obtain ⟨loose, -, rfl⟩ := List.mem_map.mp member
    exact core_apply loose memory
  prepare := by
    intro found store member memory
    obtain ⟨loose, -, rfl⟩ := List.mem_map.mp member
    exact core_apply loose memory
  stores := by
    intro read found store member first second same
    obtain ⟨inner, listed, rfl⟩ := List.mem_map.mp member
    have blind := (level_initStores _ listed).blind
    change withoutDebug (inner first.tool) = withoutDebug (inner second.tool)
    rw [← blind first.tool, ← blind second.tool]
    exact congrArg (fun state => withoutDebug (inner state)) same
  services := by
    intro first second same
    have services := congrArg backgroundServices same
    exact services

theorem applyAll_onTool (stores : List (ToolState → ToolState))
    (memory : InitMemory) :
    (applyAll memory (stores.map onTool)).tool =
      applyAll memory.tool stores := by
  induction stores generalizing memory with
  | nil => rfl
  | cons store stores induction =>
      rw [List.map_cons, applyAll_cons, applyAll_cons, induction]
      rfl

theorem complete_tool (entrySize : Nat) (read found : Found) :
    ((initRecipe entrySize).complete read found).tool =
      applyAll .fresh (initStores (performedEnv entrySize read found)) :=
  applyAll_onTool _ _

theorem withoutDebug_finish (state : ToolState) :
    withoutDebug (finish (withoutDebug state)) =
      withoutDebug (finish state) := by
  unfold finish
  have same : (withoutDebug state).buckets = state.buckets := rfl
  rw [same]
  cases state.buckets with
  | none => rfl
  | some table =>
      have kept : (withoutDebug state).tsInitialized = state.tsInitialized :=
        rfl
      unfold mttTsInitOnce
      dsimp only
      rw [kept]
      cases state.tsInitialized <;> rfl

/-! ## The settings stored without the lock -/

/-- The memory holds the value already. -/
def LooseStore.Holds (store : LooseStore) (memory : InitMemory) : Prop :=
  match store with
  | .debug level => memory.tool.settings.debugLevel = level
  | .byte index value => memory.libBlacklist index = value
  | .ready value => memory.libBlacklistReady = value
  | .unwinder mode => memory.unwinderMode = mode
  | .frames count => memory.maxStackFrames = count

theorem LooseStore.apply_eq_iff (store : LooseStore) (memory : InitMemory) :
    store.apply memory = memory ↔ store.Holds memory := by
  constructor
  · intro same
    cases store with
    | debug level =>
        exact (congrArg (fun memory : InitMemory =>
          memory.tool.settings.debugLevel) same).symm
    | byte index value =>
        have value := congrFun (congrArg InitMemory.libBlacklist same) index
        simpa [LooseStore.apply, LooseStore.Holds, eq_comm] using value
    | ready value =>
        exact (congrArg InitMemory.libBlacklistReady same).symm
    | unwinder mode => exact (congrArg InitMemory.unwinderMode same).symm
    | frames count => exact (congrArg InitMemory.maxStackFrames same).symm
  · intro holds
    cases store with
    | byte index value =>
        cases holds
        simp [LooseStore.apply]
    | _ =>
        cases holds
        rfl

theorem LooseStore.holds_apply (store : LooseStore) (memory : InitMemory) :
    store.Holds (store.apply memory) := by
  cases store with
  | byte index value => exact Function.update_self ..
  | _ => rfl

/-- The byte of `lib_blacklist` that the environment asks for. -/
def blacklistByte (env : Env) (index : Nat) : UInt8 :=
  ((wantLibBlacklist env).getD []).getD index 0

/-- The value is the one that the environment asks for. -/
def LooseStore.Expected (env : Env) : LooseStore → Prop
  | .debug level => level = wantDebug env
  | .byte index value => value = blacklistByte env index
  | .ready value => value = (wantLibBlacklist env).isSome
  | .unwinder mode => mode = wantUnwinder env
  | .frames count => inRange env "MTT_MAX_STACK_FRAMES" 1 64 = some count

theorem expected_blacklistStores {env : Env} {store : LooseStore}
    (member : store ∈ blacklistStores env) : store.Expected env := by
  unfold blacklistStores at member
  cases wanted : wantLibBlacklist env with
  | none =>
      simp only [wanted, List.mem_cons, List.not_mem_nil, or_false] at member
      obtain rfl | rfl := member
      · simp [LooseStore.Expected, blacklistByte, wanted]
      · simp [LooseStore.Expected, wanted]
  | some text =>
      simp only [wanted, List.mem_append, List.mem_map, List.mem_cons,
        List.not_mem_nil, or_false] at member
      obtain ⟨⟨byte, index⟩, listed, rfl⟩ | rfl | rfl := member
      · have at_ := List.mem_zipIdx_iff_getElem?.mp listed
        simp [LooseStore.Expected, blacklistByte, wanted, at_]
      · simp [LooseStore.Expected, blacklistByte, wanted]
      · simp [LooseStore.Expected, wanted]

theorem expected_stores {env : Env} {store : LooseStore}
    (member : store ∈ earlyStores env ++ looseStores env) :
    store.Expected env := by
  simp only [earlyStores, looseStores, List.mem_append,
    List.mem_singleton] at member
  obtain rfl | (blacklist | unwinder) | frames := member
  · rfl
  · exact expected_blacklistStores blacklist
  · split at unwinder
    · obtain rfl := List.mem_singleton.mp unwinder
      rfl
    · cases unwinder
  · split at frames
    · obtain rfl := List.mem_singleton.mp frames
      assumption
    · cases frames

theorem LooseStore.Expected.holds {env : Env} {store other : LooseStore}
    (expected : store.Expected env) (also : other.Expected env)
    {memory : InitMemory} (holds : store.Holds memory) :
    store.Holds (other.apply memory) := by
  cases store with
  | byte index value =>
      cases other with
      | byte position byte =>
          by_cases same : index = position
          · subst same
            rw [LooseStore.Expected] at expected also
            rw [expected, ← also]
            exact Function.update_self ..
          · exact (Function.update_of_ne same ..).trans holds
      | _ => exact holds
  | debug level =>
      cases other with
      | debug value => exact also.trans expected.symm
      | _ => exact holds
  | ready value =>
      cases other with
      | ready again => exact also.trans expected.symm
      | _ => exact holds
  | unwinder mode =>
      cases other with
      | unwinder again => exact also.trans expected.symm
      | _ => exact holds
  | frames count =>
      cases other with
      | frames again =>
          exact Option.some.inj (also.symm.trans expected)
      | _ => exact holds

theorem LooseStore.Expected.holds_onTool {env : Env} {store : LooseStore}
    (expected : store.Expected env) {inner : ToolState → ToolState}
    (level : Level (wantDebug env) inner) {memory : InitMemory}
    (holds : store.Holds memory) : store.Holds (onTool inner memory) := by
  cases store with
  | debug value =>
      rcases level.writes memory.tool with kept | written
      · exact kept.trans holds
      · exact written.trans expected.symm
  | _ => exact holds

/-- What every call finds in the environment. -/
def Reads (env : Env) (found : Found) : Prop := found.environ = env

/-- What a call may store, with the environment that it reads. -/
theorem makes_cases {entrySize : Nat} {allowed : Found → Prop}
    {store : InitMemory → InitMemory}
    (makes : (initRecipe entrySize).Makes allowed store) :
    ∃ found, allowed found ∧
      ((∃ loose : LooseStore,
          loose ∈ earlyStores found.environ ++ looseStores found.environ ∧
            store = loose.apply) ∨
        ∃ inner, Level (wantDebug found.environ) inner ∧
          store = onTool inner) := by
  obtain ⟨found, may, member⟩ | ⟨found, may, member⟩ |
    ⟨read, found, may, -, member⟩ := makes
  · obtain ⟨loose, listed, rfl⟩ := List.mem_map.mp member
    exact ⟨found, may, .inl ⟨loose, List.mem_append_left _ listed, rfl⟩⟩
  · obtain ⟨loose, listed, rfl⟩ := List.mem_map.mp member
    exact ⟨found, may, .inl ⟨loose, List.mem_append_right _ listed, rfl⟩⟩
  · obtain ⟨inner, listed, rfl⟩ := List.mem_map.mp member
    exact ⟨read, may, .inr ⟨inner, level_initStores _ listed, rfl⟩⟩

theorem steady (entrySize : Nat) (env : Env) :
    Steady (initRecipe entrySize) (Reads env)
      ((earlyStores env).map LooseStore.apply)
      ((looseStores env).map LooseStore.apply) where
  early_eq := by
    rintro found rfl
    rfl
  prepare_eq := by
    rintro found rfl
    rfl
  again := by
    intro store member memory
    rw [← List.map_append] at member
    obtain ⟨loose, -, rfl⟩ := List.mem_map.mp member
    exact (loose.apply_eq_iff _).mpr (loose.holds_apply memory)
  kept := by
    intro store member other makes memory done
    rw [← List.map_append] at member
    obtain ⟨loose, listed, rfl⟩ := List.mem_map.mp member
    have expected := expected_stores listed
    have holds := (loose.apply_eq_iff memory).mp done
    apply (loose.apply_eq_iff _).mpr
    obtain ⟨found, rfl, ⟨another, also, rfl⟩ | ⟨inner, level, rfl⟩⟩ :=
      makes_cases makes
    · exact expected.holds (expected_stores also) holds
    · exact expected.holds_onTool level holds

end MemoryTraceTool.InitOnce
