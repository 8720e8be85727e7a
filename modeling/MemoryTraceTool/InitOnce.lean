import MemoryTraceTool.InitStores

/-!
# The first hook

Every hook calls `mtt_ensure_init`, so several threads can be in it at once.
What is written under its lock is what one thread alone would have written, the
settings are those of the environment, and the background threads are started
once.
-/

namespace MemoryTraceTool.InitOnce

open Environment ForkChild Once Transition

/-! ## The free lists -/

theorem fillFreeLists_succ (capacity : Nat) :
    fillFreeLists (capacity + 1) =
      Function.update (fillFreeLists capacity) (capacity % mttLockStripes)
        (capacity :: fillFreeLists capacity (capacity % mttLockStripes)) := by
  unfold fillFreeLists
  rw [List.range_succ, List.foldl_append]
  rfl

theorem mem_fillFreeLists {capacity stripe slot : Nat} :
    slot ∈ fillFreeLists capacity stripe ↔
      slot < capacity ∧ slot % mttLockStripes = stripe := by
  induction capacity with
  | zero => simp [fillFreeLists]
  | succ capacity induction =>
      rw [fillFreeLists_succ]
      by_cases same : stripe = capacity % mttLockStripes
      · subst same
        rw [Function.update_self, List.mem_cons, induction]
        constructor
        · rintro (rfl | ⟨below, hashed⟩)
          · exact ⟨by omega, rfl⟩
          · exact ⟨by omega, hashed⟩
        · rintro ⟨below, hashed⟩
          by_cases last : slot = capacity
          · exact .inl last
          · exact .inr ⟨by omega, hashed⟩
      · rw [Function.update_of_ne same, induction]
        constructor
        · rintro ⟨below, hashed⟩
          exact ⟨by omega, hashed⟩
        · rintro ⟨below, hashed⟩
          refine ⟨?_, hashed⟩
          by_cases last : slot = capacity
          · subst last
            exact absurd hashed.symm same
          · omega

theorem nodup_fillFreeLists (capacity stripe : Nat) :
    (fillFreeLists capacity stripe).Nodup := by
  induction capacity with
  | zero => simp [fillFreeLists]
  | succ capacity induction =>
      rw [fillFreeLists_succ]
      by_cases same : stripe = capacity % mttLockStripes
      · subst same
        rw [Function.update_self, List.nodup_cons, mem_fillFreeLists]
        exact ⟨by omega, induction⟩
      · rw [Function.update_of_ne same]
        exact induction

/-! ## What the hooks find -/

/-- A pool with all its slots in the free lists of their stripes, or entries
from `raw_malloc`. -/
structure PoolReady (wanted : Nat) (config : ToolState) : Prop where
  size :
    config.poolMode = .active ∧ config.pool.isSome = true ∧
        config.poolCapacity = wanted ∨
      config.poolMode = .fallback ∧ config.pool = none ∧
        config.poolCapacity = 0
  unused : config.poolUsed = 0
  slots : ∀ stripe slot, slot ∈ config.poolFreeLists stripe ↔
    slot < config.poolCapacity ∧ slot % mttLockStripes = stripe
  once : ∀ stripe, (config.poolFreeLists stripe).Nodup

/-- Everything that a hook needs is in place, or the tool is disabled. -/
inductive Usable (settings : Settings) (config : ToolState) : Prop where
  | degraded (noTable : config.buckets = none)
      (disabled : config.disabled = true)
  | complete (table : BucketTable) (obtained : config.buckets = some table)
      (empty : ∀ bucket < mttBuckets, table.chains bucket = [])
      (bucketCount : config.bucketCount = mttBuckets)
      (pool : PoolReady settings.poolEntries config)
      (counters : config.counters = .zero)
      (samplePeriod : (config.settings.samplePeriod : Int) = settings.sample)
      (sampleRate : (config.settings.sampleRate : Int) = settings.sampleRate)
      (threshold : config.settings.leakThresholdSec = settings.leakThreshold)
      (startup : ∃ time, config.settings.startupUntil =
        if 0 < settings.skipStartup then time + settings.skipStartup else 0)
      (disabled : settings.disabled = true → config.disabled = true)

/-- The settings that are stored without the lock are those that were read. -/
structure Configured (settings : Settings) (memory : InitMemory) : Prop where
  debug : memory.tool.settings.debugLevel = settings.debug
  blacklist :
    match settings.libBlacklist with
    | some text => memory.libBlacklistReady = true ∧
        memory.libBlacklist text.length = 0 ∧
        ∀ index byte, text[index]? = some byte →
          memory.libBlacklist index = byte
    | none => memory.libBlacklistReady = false ∧ memory.libBlacklist 0 = 0
  unwinder : memory.unwinderMode = settings.unwinder
  frames : memory.maxStackFrames = settings.maxStackFrames

theorem PoolReady.congr {wanted : Nat} {config : ToolState} {env : InitEnv}
    {target : ToolState} (ready : PoolReady wanted config)
    (stored : { target with initialized := true } =
      storeSettings env config) : PoolReady wanted target := by
  have after : PoolReady wanted { target with initialized := true } := by
    rw [stored]
    exact ⟨ready.size, ready.unused, ready.slots, ready.once⟩
  exact ⟨after.size, after.unused, after.slots, after.once⟩

theorem allocatePool_ready (env : InitEnv) (state : ToolState) :
    PoolReady env.wantPoolEntries (allocatePool env state) := by
  have report := allocatePool_report env state
  have capacity : (allocatePool env state).poolCapacity =
      env.grantedCapacity := congrArg ToolReport.poolCapacity report
  have lists : (allocatePool env state).poolFreeLists =
      fillFreeLists env.grantedCapacity :=
    congrArg ToolReport.poolFreeLists report
  have mode : (allocatePool env state).poolMode =
      if env.obtainsPool then .active else .fallback :=
    congrArg ToolReport.poolMode report
  constructor
  · rw [capacity, mode, InitEnv.grantedCapacity]
    by_cases malloc : env.rawMalloc = some true
    · refine .inl ?_
      simp [allocatePool, malloc, ToolState.newPool, InitEnv.obtainsPool]
    · by_cases calloc : env.rawCalloc.any CallocAnswers.pool = true
      · refine .inl ?_
        simp [allocatePool, malloc, calloc, ToolState.newPool,
          InitEnv.obtainsPool]
      · refine .inr ?_
        simp [allocatePool, malloc, calloc, InitEnv.obtainsPool]
  · exact congrArg ToolReport.poolUsed report
  · intro stripe slot
    rw [lists, capacity]
    exact mem_fillFreeLists
  · intro stripe
    rw [lists]
    exact nodup_fillFreeLists _ stripe

/-- The stores leave a state that the hooks can use. -/
theorem usable_initStores (found : Found) {settings : Settings}
    (sample : 0 ≤ settings.sample) (sampleRate : 0 ≤ settings.sampleRate) :
    Usable settings
      (applyAll .fresh (initStores (initEnv settings found))) := by
  have stored := applyAll_initStores (initEnv settings found)
  have fresh : EmptyTable .fresh := by
    intro table held
    cases held
  have emptied := fresh.allocateBuckets (initEnv settings found)
  have bucketCount :
      (allocateBuckets (initEnv settings found) .fresh).bucketCount =
        mttBuckets := by
    obtain ⟨_, _, _, shape⟩ :=
      allocateBuckets_shape (initEnv settings found) .fresh
    rw [shape]
  cases obtained : (allocateBuckets (initEnv settings found) .fresh).buckets
    with
  | none =>
      rw [obtained] at stored
      apply Usable.degraded
      · exact (congrArg ToolState.buckets stored).trans obtained
      · exact congrArg ToolState.disabled stored
  | some table =>
      rw [obtained] at stored
      dsimp only at stored
      have tables := allocatePool_table (initEnv settings found)
        (seedHash (initEnv settings found)
          (allocateBuckets (initEnv settings found) .fresh))
      have ready := allocatePool_ready (initEnv settings found)
        (seedHash (initEnv settings found)
          (allocateBuckets (initEnv settings found) .fresh))
      have period : (applyAll .fresh
          (initStores (initEnv settings found))).settings.samplePeriod =
          settings.sample.toNat :=
        congrArg (fun state => state.settings.samplePeriod) stored
      have rate : (applyAll .fresh
          (initStores (initEnv settings found))).settings.sampleRate =
          settings.sampleRate.toNat :=
        congrArg (fun state => state.settings.sampleRate) stored
      have disabled : (applyAll .fresh
          (initStores (initEnv settings found))).disabled =
          (settings.disabled || found.blacklistSelfMatch) :=
        congrArg ToolState.disabled stored
      apply Usable.complete table
      · exact (congrArg ToolState.buckets stored).trans
          (tables.1.trans obtained)
      · exact emptied table obtained
      · exact (congrArg ToolState.bucketCount stored).trans
          (tables.2.2.trans bucketCount)
      · exact ready.congr stored
      · exact congrArg ToolState.counters stored
      · rw [period]
        exact Int.toNat_of_nonneg sample
      · rw [rate]
        exact Int.toNat_of_nonneg sampleRate
      · exact congrArg (fun state => state.settings.leakThresholdSec) stored
      · exact ⟨found.time,
          congrArg (fun state => state.settings.startupUntil) stored⟩
      · intro wanted
        rw [disabled, wanted]
        rfl

theorem PoolReady.of_withoutDebug {wanted : Nat} {config : ToolState}
    (ready : PoolReady wanted (withoutDebug config)) :
    PoolReady wanted config :=
  ⟨ready.size, ready.unused, ready.slots, ready.once⟩

theorem PoolReady.withoutDebug {wanted : Nat} {config : ToolState}
    (ready : PoolReady wanted config) :
    PoolReady wanted (withoutDebug config) :=
  ⟨ready.size, ready.unused, ready.slots, ready.once⟩

theorem Usable.congr {settings : Settings} {first second : ToolState}
    (usable : Usable settings first)
    (same : InitOnce.withoutDebug first = InitOnce.withoutDebug second) :
    Usable settings second := by
  have before : Usable settings (InitOnce.withoutDebug first) := by
    cases usable with
    | degraded noTable disabled => exact .degraded noTable disabled
    | complete table obtained empty bucketCount pool counters samplePeriod
        sampleRate threshold startup disabled =>
        exact .complete table obtained empty bucketCount pool.withoutDebug
          counters samplePeriod sampleRate threshold startup disabled
  rw [same] at before
  cases before with
  | degraded noTable disabled => exact .degraded noTable disabled
  | complete table obtained empty bucketCount pool counters samplePeriod
      sampleRate threshold startup disabled =>
      exact .complete table obtained empty bucketCount pool.of_withoutDebug
        counters samplePeriod sampleRate threshold startup disabled

/-! ## Any number of threads -/

/-- `MTT_DEBUG=2`, `MTT_LIB_BLACKLIST=a.so` and `MTT_MAX_STACK_FRAMES=16`. -/
def startEnv : Env := fun name =>
  if name = "MTT_DEBUG" then some (Json.ascii "2")
  else if name = "MTT_LIB_BLACKLIST" then some (Json.ascii "a.so")
  else if name = "MTT_MAX_STACK_FRAMES" then some (Json.ascii "16")
  else none

/-- A process without memory for the pool. -/
def scarce : Found where
  environ := startEnv
  time := 1700000000
  pid := 4711
  rawCalloc := some ⟨true, false⟩
  bootstrapCalloc := false
  rawMalloc := some false
  blacklistSelfMatch := false

/-- Both threads find the flag unset and wait for the lock; the first one gets
it and has started two threads when the second one returns. -/
def contended : List (Label Worker Found) :=
  [.call .first scarce, .call .second scarce] ++
    List.replicate 11 (.step .first scarce) ++
    List.replicate 11 (.step .second scarce) ++
    List.replicate 105 (.step .first scarce) ++
    List.replicate 3 (.step .second scarce)

def unstarted : Once.State Worker InitMemory Found Service where
  flag := false
  owner := none
  config := .initial
  started := []
  performed := []
  threads := fun _ => .idle

theorem contended_reachable :
    ∃ state, (initSystem Worker 560).ReachableBy
        (fun _ label => label.outcome.environ = startEnv) state ∧
      state.threads .second = .returned ∧
      state.started.map Prod.fst = [.timeSeries, .reporter] := by
  have executed : ((initSystem Worker 560).run unstarted contended).any
      (fun state => (state.threads .second).isReturned &&
        state.started.map Prod.fst == [.timeSeries, .reporter]) = true := by
    decide +kernel
  obtain ⟨state, ran, tested⟩ := (Option.any_eq_true _ _).mp executed
  rw [Bool.and_eq_true, beq_iff_eq] at tested
  have same : ∀ label ∈ contended, ∀ passed : Once.State Worker InitMemory
      Found Service, label.outcome.environ = startEnv := by
    intro label member _
    simp only [contended, List.mem_append, List.mem_cons, List.not_mem_nil,
      List.mem_replicate, or_false] at member
    obtain (((((rfl | rfl) | ⟨-, rfl⟩) | ⟨-, rfl⟩) | ⟨-, rfl⟩) | ⟨-, rfl⟩) :=
      member <;> rfl
  exact ⟨state,
    System.reachableBy_of_run
      (.start ⟨rfl, rfl, rfl, rfl, rfl, fun _ => rfl⟩) same ran,
    Pc.eq_returned tested.1, tested.2⟩

section Threads

variable {Thread : Type} [DecidableEq Thread] {env : Env} {entrySize : Nat}
  {state : Once.State Thread InitMemory Found Service}

/-- The stores without the lock keep to their ranges, whatever the environment
is and becomes. -/
structure InRange (memory : InitMemory) : Prop where
  debug : 0 ≤ memory.tool.settings.debugLevel ∧
    memory.tool.settings.debugLevel ≤ 2
  frames : 1 ≤ memory.maxStackFrames ∧ memory.maxStackFrames ≤ 64

theorem inRange_initial : InRange .initial :=
  ⟨⟨by decide, by decide⟩, by decide, by decide⟩

theorem wantDebug_range (env : Env) :
    0 ≤ wantDebug env ∧ wantDebug env ≤ 2 := by
  unfold wantDebug
  split
  · decide
  · dsimp only
    split <;> split <;> omega

theorem inRange_bounds {name : String} {lowest highest value : Int}
    (found : inRange env name lowest highest = some value) :
    lowest ≤ value ∧ value ≤ highest := by
  obtain ⟨text, -, chosen⟩ := Option.bind_eq_some_iff.mp found
  dsimp only at chosen
  split at chosen
  · rename_i within
    exact Option.some.inj chosen ▸ within
  · cases chosen

theorem InRange.store {memory : InitMemory} (within : InRange memory)
    {store : InitMemory → InitMemory}
    (makes : (initRecipe entrySize).Makes (fun _ => True) store) :
    InRange (store memory) := by
  obtain ⟨found, -, ⟨loose, listed, rfl⟩ | ⟨inner, level, rfl⟩⟩ :=
    makes_cases makes
  · have expected := expected_stores listed
    cases loose with
    | debug value =>
        obtain rfl : value = wantDebug found.environ := expected
        exact ⟨wantDebug_range found.environ, within.frames⟩
    | frames count =>
        exact ⟨within.debug, inRange_bounds expected⟩
    | _ => exact ⟨within.debug, within.frames⟩
  · refine ⟨?_, within.frames⟩
    rcases level.writes memory.tool with kept | written
    · exact kept ▸ within.debug
    · exact written ▸ wantDebug_range found.environ

/-- However the calls interleave, one thread at most makes the stores under the
lock.  After any call has returned, everything but the settings stored without
it is what that thread would have left alone, up to `mtt_ts_init`, which may
still have to come, and no later step changes it. -/
theorem mttEnsureInit_once
    (reachable : (initSystem Thread entrySize).Reachable state) :
    state.performed.length ≤ 1 ∧
      (∀ thread, state.threads thread = .returned →
        (∃ performance, state.performed = [performance] ∧
          withoutDebug (finish state.config.tool) =
            withoutDebug (ForkChild.mttEnsureInit (performedEnv entrySize
              performance.read performance.found) .fresh)) ∧
        ∀ later,
          (initSystem Thread entrySize).StepsBy (fun _ _ => True)
            state later →
          withoutDebug later.config.tool = withoutDebug state.config.tool) ∧
      InRange state.config := by
  have invariant := invariant_reachable (separate entrySize) reachable
  refine ⟨invariant.performed_le_one, ?_, ?_⟩
  · intro thread returned
    obtain ⟨performance, published⟩ :=
      invariant.published (invariant.flag_of_returned returned)
    refine ⟨⟨performance, published.performed, ?_⟩, ?_⟩
    · have stored : withoutDebug state.config.tool =
          withoutDebug (applyAll .fresh (initStores (performedEnv entrySize
            performance.read performance.found))) := by
        rw [← complete_tool]
        exact published.config
      rw [← withoutDebug_finish, stored, withoutDebug_finish,
        finish_applyAll_initStores]
    · intro later steps
      exact published.steps (separate entrySize) invariant steps
  · apply config_kept (fun _ => True) InRange inRange_initial _ reachable
    exact fun store makes memory within => within.store makes

theorem mttEnsureInit_once_contended :
    ∃ state : Once.State Worker InitMemory Found Service,
      state.threads .second = .returned ∧ state.performed.length ≤ 1 ∧
        ∃ performance, state.performed = [performance] ∧
          withoutDebug (finish state.config.tool) =
            withoutDebug (ForkChild.mttEnsureInit (performedEnv 560
              performance.read performance.found) .fresh) := by
  obtain ⟨state, reachable, returned, -⟩ := contended_reachable
  have once := mttEnsureInit_once (reachable.mono fun _ _ _ => trivial)
  exact ⟨state, returned, once.1, (once.2.1 .second returned).1⟩

theorem mem_backgroundServices {config : ToolState} {service : Service}
    (started : service ∈ backgroundServices config)
    (isThread : service ≠ .timeSeries) : config.disabled = false := by
  unfold backgroundServices at started
  split at started
  · simp at started
  · split at started
    · simp at started
      contradiction
    · rename_i enabled
      exact Bool.not_eq_true _ ▸ enabled

theorem nodup_backgroundServices (config : ToolState) :
    (backgroundServices config).Nodup := by
  unfold backgroundServices
  split
  · exact List.nodup_nil
  · split <;> decide

theorem configured_blacklist {memory : InitMemory}
    (holds : ∀ store ∈ blacklistStores env, store.Holds memory) :
    match wantLibBlacklist env with
    | some text => memory.libBlacklistReady = true ∧
        memory.libBlacklist text.length = 0 ∧
        ∀ index byte, text[index]? = some byte →
          memory.libBlacklist index = byte
    | none => memory.libBlacklistReady = false ∧ memory.libBlacklist 0 = 0 := by
  unfold blacklistStores at holds
  cases wanted : wantLibBlacklist env with
  | none =>
      rw [wanted] at holds
      constructor
      · apply holds (.ready false)
        simp
      · apply holds (.byte 0 0)
        simp
  | some text =>
      rw [wanted] at holds
      refine ⟨?_, ?_, ?_⟩
      · apply holds (.ready true)
        simp
      · apply holds (.byte text.length 0)
        simp
      · intro index byte found
        apply holds (.byte index byte)
        apply List.mem_append_left
        exact List.mem_map.mpr
          ⟨(byte, index), List.mem_zipIdx_iff_getElem?.mpr found, rfl⟩

theorem settings_range (env : Env) (entrySize : Nat) :
    0 ≤ (readSettings env entrySize).sample ∧
      0 ≤ (readSettings env entrySize).sampleRate := by
  have sampleListed : (⟨"MTT_SAMPLE", false, 0, 1024, 0, Settings.sample⟩ :
      NumericSetting) ∈ numericSettings entrySize := by
    simp [numericSettings]
  have rateListed : (⟨"MTT_SAMPLE_RATE", false, 0, 30, 0,
      Settings.sampleRate⟩ : NumericSetting) ∈ numericSettings entrySize := by
    simp [numericSettings]
  exact ⟨(read_within env entrySize sampleListed).1,
    (read_within env entrySize rateListed).1⟩

/-- When all stores without the lock are done the settings are those of the
environment. -/
theorem configured (memory : InitMemory)
    (done : Done ((earlyStores env).map LooseStore.apply ++
      (looseStores env).map LooseStore.apply) memory)
    (unwinder : env "MTT_UNWINDER" = none → memory.unwinderMode = .auto)
    (frames : inRange env "MTT_MAX_STACK_FRAMES" 1 64 = none →
      memory.maxStackFrames = 64) :
    Configured (readSettings env entrySize) memory := by
  have holds : ∀ store ∈ earlyStores env ++ looseStores env,
      store.Holds memory := by
    intro store listed
    apply (store.apply_eq_iff memory).mp
    apply done
    rw [← List.map_append]
    exact List.mem_map_of_mem listed
  have blacklist : ∀ store ∈ blacklistStores env, store.Holds memory := by
    intro store listed
    apply holds
    simp [looseStores, listed]
  constructor
  · exact holds (.debug (wantDebug env)) List.mem_cons_self
  · exact configured_blacklist blacklist
  · change memory.unwinderMode = wantUnwinder env
    cases wanted : env "MTT_UNWINDER" with
    | none =>
        rw [unwinder wanted]
        simp [wantUnwinder, wanted]
    | some text =>
        apply holds (.unwinder (wantUnwinder env))
        simp [looseStores, wanted]
  · change memory.maxStackFrames =
      (inRange env "MTT_MAX_STACK_FRAMES" 1 64).getD 64
    cases wanted : inRange env "MTT_MAX_STACK_FRAMES" 1 64 with
    | none => exact frames wanted
    | some count =>
        apply holds (.frames count)
        simp [looseStores, wanted]

theorem unset_kept {store : InitMemory → InitMemory}
    (makes : (initRecipe entrySize).Makes (Reads env) store)
    {memory : InitMemory}
    (unset : (env "MTT_UNWINDER" = none → memory.unwinderMode = .auto) ∧
      (inRange env "MTT_MAX_STACK_FRAMES" 1 64 = none →
        memory.maxStackFrames = 64)) :
    (env "MTT_UNWINDER" = none → (store memory).unwinderMode = .auto) ∧
      (inRange env "MTT_MAX_STACK_FRAMES" 1 64 = none →
        (store memory).maxStackFrames = 64) := by
  obtain ⟨found, rfl, ⟨loose, listed, rfl⟩ | ⟨inner, -, rfl⟩⟩ :=
    makes_cases makes
  · have expected := expected_stores listed
    cases loose with
    | unwinder mode =>
        refine ⟨?_, unset.2⟩
        intro none
        exact expected.trans (by simp [wantUnwinder, none])
    | frames count =>
        refine ⟨unset.1, ?_⟩
        intro none
        cases none.symm.trans expected
    | _ => exact unset
  · exact unset

end Threads

end MemoryTraceTool.InitOnce
