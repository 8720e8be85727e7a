import MemoryTraceTool.Nesting

/-!
# What nested calls leave in the accounts

A nested call of a thread that is already inside a hook, or that the tool has
marked as its own, goes to the raw allocators.  The macro API does not raise
the depth, so a nested call of one of its functions is served like a call of
the application.
-/

namespace MemoryTraceTool.Nesting

open Accounting
open MemoryTraceTool.Sequential (ThreadSlot mttHookEnter)
open ForkChild (TrackedEntry)

/-- The bucket table and the counters of the application's blocks. -/
structure Accounts where
  chains : Nat → List TrackedEntry
  allocCount : Word
  freeCount : Word
  currentBytes : Word
  totalBytes : Word

def Accounts.zero : Accounts :=
  { chains := fun _ => []
    allocCount := 0
    freeCount := 0
    currentBytes := 0
    totalBytes := 0 }

/-- What the accounts read of a tracker. -/
def trackerAccounts (tracker : Tracker) : Accounts :=
  { chains := tracker.chains
    allocCount := tracker.allocCount
    freeCount := tracker.freeCount
    currentBytes := tracker.currentBytes
    totalBytes := tracker.totalBytes }

/-- Before the initialisation the accounts are empty. -/
def ToolState.accounts (tool : ToolState) : Accounts :=
  match tool.tracker with
  | none => .zero
  | some tracker => trackerAccounts tracker

/-- A hook called with this return address looks at the entry table. -/
def Context.Passes (context : Context) (tool : ToolState) (lr : Word) : Prop :=
  ∃ slot, context.slot = some slot ∧ mttHookEnter (some slot) ≤ 0 ∧
    slot.toolInternal = false ∧ mttIsLrInBlacklist tool lr = false

/-- A tracked `malloc` of this size records its block. -/
structure Running.Records (running : Running) (input : CallInput)
    (size : Word) : Prop where
  started : input.startup = false
  enabled : running.disabled = false
  allocated : input.reply ≠ none
  tracked : (mttShouldTrack running.tracker.sampler size.toNat).1 = true
  room : running.tracker.entryCount < mttMaxEntries
  entry : running.tracker.HasEntry input.rawMalloc

/-- A tracked `free` of this block finds an entry. -/
structure Running.Forgets (running : Running) (ptr : Word) : Prop where
  enabled : running.disabled = false
  found : Accounting.mttEntryFind running.tracker ptr ≠ none

/-- A tracked `realloc` of this block finds its entry, or records the new
block without one. -/
structure Running.Moves (running : Running) (input : CallInput)
    (ptr : Word) : Prop where
  enabled : running.disabled = false
  allocated : input.reply ≠ none
  replaces : if input.rawRealloc then
      Accounting.mttEntryFind running.tracker ptr ≠ none
    else
      running.tracker.HasEntry input.rawMalloc ∧
        (Accounting.mttEntryFind running.tracker ptr ≠ none ∨
          running.tracker.entryCount < mttMaxEntries)

/-- A `malloc` that changes the accounts. -/
def MallocTouches (context : Context) (lr : Word) (input : CallInput)
    (size : Word) (tool : ToolState) : Prop :=
  context.Passes tool lr ∧ size ≠ 0 ∧
    (tool.runningAfter input.init).Records input size

/-- A `free` that changes the accounts. -/
def FreeTouches (context : Context) (lr : Word) (input : CallInput)
    (ptr : Word) (tool : ToolState) : Prop :=
  ptr ≠ 0 ∧ mttPoolContains tool ptr = false ∧ context.Passes tool lr ∧
    (tool.runningAfter input.init).Forgets ptr

/-- The hook call gets to the table and changes it. -/
def Touches (context : Context) (call : Call) (input : CallInput)
    (tool : ToolState) : Prop :=
  match call with
  | .malloc size => MallocTouches context input.lr input size tool
  | .calloc count size =>
      ∃ total, arraySize count.toNat size.toNat = some total ∧
        context.Passes tool input.lr ∧
        MallocTouches context input.innerLr input (BitVec.ofNat 64 total) tool
  | .realloc ptr size =>
      if ptr = 0 then MallocTouches context input.innerLr input size tool
      else if size = 0 then FreeTouches context input.innerLr input ptr tool
      else
        context.Passes tool input.lr ∧
          (tool.runningAfter input.init).Moves input ptr
  | .free ptr => FreeTouches context input.lr input ptr tool

/-! ## The accounts of a tracker -/

@[simp] theorem trackerAccounts_mttEntryDiscard (tracker : Tracker)
    (entry : TrackedEntry) :
    trackerAccounts (mttEntryDiscard tracker entry) =
      trackerAccounts tracker := by
  unfold mttEntryDiscard
  split <;> rfl

theorem mttEntryNew_accounts {tracker later : Tracker} {rawMalloc : Bool}
    {snap : MttAllocSnap 64} {entry : TrackedEntry}
    (taken : Accounting.mttEntryNew tracker rawMalloc snap =
      some (entry, later)) :
    trackerAccounts later = trackerAccounts tracker := by
  unfold Accounting.mttEntryNew at taken
  split at taken
  · obtain ⟨⟨slot, lists⟩, _, made⟩ := Option.map_eq_some_iff.mp taken
    cases made
    rfl
  · split at taken
    · cases taken
      rfl
    · cases taken

theorem recordEntry_accounts_iff (tracker : Tracker) (api : Bool)
    (entry : TrackedEntry) :
    trackerAccounts (recordEntry tracker api entry) =
        trackerAccounts tracker ↔
      mttMaxEntries ≤ tracker.entryCount := by
  unfold recordEntry
  split
  · rename_i full
    simp only [trackerAccounts_mttEntryDiscard, full, iff_true]
    rfl
  · rename_i room
    simp only [room, iff_false]
    intro same
    have count := congrArg Accounts.allocCount same
    simp only [trackerAccounts] at count
    exact (left_ne_add.mpr (by decide)) count.symm

theorem recordEntry_freeCount (tracker : Tracker) (api : Bool)
    (entry : TrackedEntry) :
    (trackerAccounts (recordEntry tracker api entry)).freeCount =
      tracker.freeCount := by
  unfold recordEntry
  split
  · rw [trackerAccounts_mttEntryDiscard]
    rfl
  · rfl

/-- Both kinds of checks agree on the requests that pass, and change nothing
but the sampler and the count of dropped requests. -/
structure Checks (tracker : Tracker) (size : Word) (passes : Bool)
    (checked : Tracker) : Prop where
  passes_iff : passes = true ↔
    (mttShouldTrack tracker.sampler size.toNat).1 = true ∧
      tracker.entryCount < mttMaxEntries
  accounts : trackerAccounts checked = trackerAccounts tracker
  entryCount : checked.entryCount = tracker.entryCount
  pool : checked.pool = tracker.pool

theorem checkTracked_checks (api : Bool) (tracker : Tracker) (size : Word) :
    Checks tracker size (checkTracked api tracker size).1
      (checkTracked api tracker size).2 := by
  cases api with
  | true =>
      simp only [checkTracked, checkApiRequest, Accounting.mttIsOverCapacity]
      split_ifs with track full <;>
        constructor <;> simp_all [trackerAccounts]
  | false =>
      simp only [checkTracked, checkRequest, Accounting.mttIsOverCapacity]
      split_ifs with full <;> constructor <;> simp_all [trackerAccounts]

/-- `newEntry` on a tracker, when the capture of the stack leaves it alone. -/
def newEntryTracked (api : Bool) (input : CallInput) (ptr size : Word)
    (tracker : Tracker) : Tracker :=
  match Accounting.mttEntryNew tracker input.rawMalloc
      { ptr, size, timestamp := input.now, stack := input.stack } with
  | none => tracker
  | some (entry, taken) => recordEntry taken api entry

theorem newEntryTracked_accounts_iff (api : Bool) (input : CallInput)
    (ptr size : Word) (tracker : Tracker) :
    trackerAccounts (newEntryTracked api input ptr size tracker) =
        trackerAccounts tracker ↔
      (tracker.HasEntry input.rawMalloc →
        mttMaxEntries ≤ tracker.entryCount) := by
  unfold newEntryTracked
  split
  · rename_i missing
    have noEntry := mttEntryNew_eq_none_iff.mp missing
    simp [noEntry]
  · rename_i entry later taken
    have hasEntry : tracker.HasEntry input.rawMalloc := by
      by_contra noEntry
      rw [mttEntryNew_eq_none_iff.mpr noEntry] at taken
      cases taken
    rw [← mttEntryNew_accounts taken, recordEntry_accounts_iff,
      (mttEntryNew_takes taken).entryCount]
    simp [hasEntry]

theorem newEntryTracked_freeCount (api : Bool) (input : CallInput)
    (ptr size : Word) (tracker : Tracker) :
    (trackerAccounts (newEntryTracked api input ptr size tracker)).freeCount =
      tracker.freeCount := by
  unfold newEntryTracked
  split
  · rfl
  · rename_i entry later taken
    rw [recordEntry_freeCount]
    exact congrArg Accounts.freeCount (mttEntryNew_accounts taken)

theorem mttEntryRemove_freeCount (tracker : Tracker) (ptr : Word) :
    (trackerAccounts (Accounting.mttEntryRemove tracker ptr)).freeCount =
      tracker.freeCount := by
  unfold Accounting.mttEntryRemove
  split
  · rfl
  · rw [trackerAccounts_mttEntryDiscard]
    rfl

theorem accounts_ne_of_freeCount {before after : Accounts}
    (risen : after.freeCount = before.freeCount + 1) : after ≠ before := by
  intro same
  have count := congrArg Accounts.freeCount same
  rw [risen] at count
  exact (left_ne_add.mpr (by decide)) count.symm

/-! ## The tracked functions on a tracker -/

def Running.malloced (running : Running) (api : Bool) (input : CallInput)
    (size : Word) : Tracker :=
  match input.reply with
  | none => running.tracker
  | some ptr =>
      if input.startup || running.disabled then running.tracker
      else
        let (passes, checked) := checkTracked api running.tracker size
        if passes then newEntryTracked api input ptr size checked else checked

theorem Running.malloced_accounts_iff (running : Running) (api : Bool)
    (input : CallInput) (size : Word) :
    trackerAccounts (running.malloced api input size) =
        trackerAccounts running.tracker ↔
      ¬ running.Records input size := by
  have checks := checkTracked_checks api running.tracker size
  unfold Running.malloced
  split
  · rename_i failed
    simp only [true_iff]
    intro records
    exact records.allocated failed
  · rename_i ptr allocated
    split
    · rename_i skipped
      simp only [true_iff]
      intro records
      simp [records.started, records.enabled] at skipped
    · rename_i serves
      rw [Bool.or_eq_true, not_or, Bool.not_eq_true, Bool.not_eq_true]
        at serves
      split
      rename_i passes checked isChecked
      rw [isChecked] at checks
      split
      · rename_i isPassing
        obtain ⟨tracked, room⟩ := checks.passes_iff.mp isPassing
        rw [← checks.accounts, newEntryTracked_accounts_iff,
          checks.entryCount]
        have hasEntry : checked.HasEntry input.rawMalloc ↔
            running.tracker.HasEntry input.rawMalloc := by
          unfold Tracker.HasEntry
          rw [checks.pool]
        rw [hasEntry]
        constructor
        · intro full records
          exact Nat.not_le.mpr room (full records.entry)
        · intro silent entry
          refine (silent ⟨serves.1, serves.2, ?_, tracked, room, entry⟩).elim
          rw [allocated]
          exact Option.some_ne_none ptr
      · rename_i fails
        rw [checks.accounts]
        simp only [true_iff]
        intro records
        exact fails (checks.passes_iff.mpr ⟨records.tracked, records.room⟩)

theorem freeTracked_accounts_iff (tracker : Tracker) (ptr : Word)
    (now : Int) :
    trackerAccounts (freeTracked tracker ptr now) =
        trackerAccounts tracker ↔
      Accounting.mttEntryFind tracker ptr = none := by
  unfold freeTracked
  split
  · rename_i missing
    simp [missing]
  · rename_i entry found
    simp only [found, reduceCtorEq, iff_false]
    apply accounts_ne_of_freeCount
    rw [mttEntryRemove_freeCount]
    rfl

theorem forgetEntry_freeCount {tracker : Tracker} {ptr : Word}
    (found : Accounting.mttEntryFind tracker ptr ≠ none) :
    (trackerAccounts (forgetEntry ptr tracker)).freeCount =
      tracker.freeCount + 1 := by
  unfold forgetEntry
  split
  · rename_i missing
    exact (found missing).elim
  · rw [mttEntryRemove_freeCount]
    rfl

theorem forgetEntry_of_missing {tracker : Tracker} {ptr : Word}
    (missing : Accounting.mttEntryFind tracker ptr = none) :
    forgetEntry ptr tracker = tracker := by
  unfold forgetEntry
  rw [missing]

theorem mttEntryNew_find {tracker later : Tracker} {rawMalloc : Bool}
    {snap : MttAllocSnap 64} {entry : TrackedEntry}
    (taken : Accounting.mttEntryNew tracker rawMalloc snap =
      some (entry, later)) (ptr : Word) :
    Accounting.mttEntryFind later ptr =
      Accounting.mttEntryFind tracker ptr := by
  unfold Accounting.mttEntryNew at taken
  split at taken
  · obtain ⟨⟨slot, lists⟩, _, made⟩ := Option.map_eq_some_iff.mp taken
    cases made
    rfl
  · split at taken
    · cases taken
      rfl
    · cases taken

/-- `trackRealloc` on a tracker. -/
def replaceTracked (api : Bool) (input : CallInput) (ptr new size : Word)
    (tracker : Tracker) : Tracker :=
  match Accounting.mttEntryFind tracker ptr with
  | none => tracker
  | some entry =>
      let counted :=
        if api then countFree tracker entry else countMoved tracker entry
      let (overCap, checked) := Accounting.mttIsOverCapacity
        (Accounting.mttEntryRemove counted ptr)
      if overCap then checked else newEntryTracked api input new size checked

theorem replaceTracked_accounts_iff (api : Bool) (input : CallInput)
    (ptr new size : Word) (tracker : Tracker) :
    trackerAccounts (replaceTracked api input ptr new size tracker) =
        trackerAccounts tracker ↔
      Accounting.mttEntryFind tracker ptr = none := by
  unfold replaceTracked
  split
  · rename_i missing
    simp [missing]
  · rename_i entry found
    simp only [found, reduceCtorEq, iff_false]
    apply accounts_ne_of_freeCount
    have counted : ∀ counted : Tracker,
        counted.freeCount = tracker.freeCount + 1 →
        (trackerAccounts (if (Accounting.mttIsOverCapacity
            (Accounting.mttEntryRemove counted ptr)).1 then
          (Accounting.mttIsOverCapacity
            (Accounting.mttEntryRemove counted ptr)).2
        else newEntryTracked api input new size
          (Accounting.mttIsOverCapacity
            (Accounting.mttEntryRemove counted ptr)).2)).freeCount =
          tracker.freeCount + 1 := by
      intro counted risen
      have removed := (mttEntryRemove_freeCount counted ptr).trans risen
      have checked : (Accounting.mttIsOverCapacity
          (Accounting.mttEntryRemove counted ptr)).2.freeCount =
            tracker.freeCount + 1 := by
        unfold Accounting.mttIsOverCapacity
        split <;> exact removed
      split
      · exact checked
      · rw [newEntryTracked_freeCount, checked]
    apply counted
    cases api <;> rfl

/-- `trackReallocFallback` on a tracker. -/
def replaceFallback (api : Bool) (input : CallInput) (ptr new size : Word)
    (tracker : Tracker) : Tracker :=
  match Accounting.mttEntryNew tracker input.rawMalloc
      { ptr := new, size, timestamp := input.now, stack := input.stack } with
  | none => tracker
  | some (entry, taken) => recordEntry (forgetEntry ptr taken) api entry

theorem replaceFallback_accounts_iff (api : Bool) (input : CallInput)
    (ptr new size : Word) (tracker : Tracker) :
    trackerAccounts (replaceFallback api input ptr new size tracker) =
        trackerAccounts tracker ↔
      ¬ (tracker.HasEntry input.rawMalloc ∧
        (Accounting.mttEntryFind tracker ptr ≠ none ∨
          tracker.entryCount < mttMaxEntries)) := by
  unfold replaceFallback
  split
  · rename_i missing
    simp [mttEntryNew_eq_none_iff.mp missing]
  · rename_i entry later taken
    have hasEntry : tracker.HasEntry input.rawMalloc := by
      by_contra noEntry
      rw [mttEntryNew_eq_none_iff.mpr noEntry] at taken
      cases taken
    have same := mttEntryNew_accounts taken
    simp only [hasEntry, true_and, not_or, not_not, Nat.not_lt]
    by_cases missing : Accounting.mttEntryFind tracker ptr = none
    · have missingLater := (mttEntryNew_find taken ptr).trans missing
      rw [forgetEntry_of_missing missingLater, ← same,
        recordEntry_accounts_iff, (mttEntryNew_takes taken).entryCount]
      simp [missing]
    · simp only [missing, false_and, iff_false]
      apply accounts_ne_of_freeCount
      rw [recordEntry_freeCount]
      have foundLater : Accounting.mttEntryFind later ptr ≠ none := by
        rw [mttEntryNew_find taken ptr]
        exact missing
      have risen := forgetEntry_freeCount foundLater
      have before := congrArg Accounts.freeCount same
      exact risen.trans (congrArg (· + 1) before)

/-- `reallocTracked` on a tracker. -/
def Running.moved (running : Running) (api : Bool) (input : CallInput)
    (ptr size : Word) : Tracker :=
  match input.reply with
  | none => running.tracker
  | some new =>
      if running.disabled then running.tracker
      else if input.rawRealloc then
        replaceTracked api input ptr new size running.tracker
      else replaceFallback api input ptr new size running.tracker

theorem Running.moved_accounts_iff (running : Running) (api : Bool)
    (input : CallInput) (ptr size : Word) :
    trackerAccounts (running.moved api input ptr size) =
        trackerAccounts running.tracker ↔
      ¬ running.Moves input ptr := by
  have moves_iff : running.Moves input ptr ↔ running.disabled = false ∧
      input.reply ≠ none ∧ if input.rawRealloc then
        Accounting.mttEntryFind running.tracker ptr ≠ none
      else running.tracker.HasEntry input.rawMalloc ∧
        (Accounting.mttEntryFind running.tracker ptr ≠ none ∨
          running.tracker.entryCount < mttMaxEntries) :=
    ⟨fun moves => ⟨moves.enabled, moves.allocated, moves.replaces⟩,
      fun ⟨enabled, allocated, replaces⟩ => ⟨enabled, allocated, replaces⟩⟩
  rw [moves_iff]
  unfold Running.moved
  split
  · rename_i failed
    simp [failed]
  · rename_i new allocated
    split
    · rename_i disabled
      simp [disabled]
    · rename_i enabled
      rw [Bool.not_eq_true] at enabled
      split
      · rename_i hasRealloc
        rw [replaceTracked_accounts_iff]
        simp [enabled, allocated]
      · rename_i noRealloc
        rw [replaceFallback_accounts_iff]
        simp [enabled, allocated]

/-! ## The tracked functions in a sheltered context -/

theorem ToolState.mapTracker_tracker (tool : ToolState)
    (change : Tracker → Tracker) :
    (tool.mapTracker change).tracker = tool.tracker.map change := by
  cases tool with
  | mk libs state =>
      cases state with
      | none => rfl
      | some state =>
          simp only [ToolState.tracker, ToolState.running,
            ToolState.mapTracker, ToolState.mapResolved, Option.map_some,
            Option.bind_some, Option.map_map]
          rfl

theorem Calm.tracker {before after : ToolState} (calm : Calm before after) :
    after.tracker = before.tracker := by
  rw [ToolState.tracker, calm.running, ToolState.tracker]

theorem mttCaptureStack_calm {nested : Nested} (calm : NestedCalm nested)
    {context : Context} (sheltered : context.Sheltered) (machine : Machine) :
    ReturnsWith (mttCaptureStack nested context machine)
      (Calm machine.tool) := by
  unfold mttCaptureStack
  split
  · exact ⟨machine, rfl, rfl, id⟩
  · exact calm.capturing _ machine sheltered.capturing

section Tracked

variable {nested : Nested} {context : Context} {machine : Machine}

/-- The function returns with this tracker. -/
def Leaves (outcome : Outcome) (tracker : Tracker) : Prop :=
  ReturnsWith outcome fun tool => tool.tracker = some tracker

theorem mapTracker_const {tracker : Tracker}
    (isTracker : machine.tool.tracker = some tracker) (later : Tracker) :
    (machine.mapTool fun tool => tool.mapTracker fun _ => later).tool.tracker =
      some later := by
  simp only [Machine.mapTool, ToolState.mapTracker_tracker, isTracker]
  rfl

theorem newEntry_leaves (calm : NestedCalm nested)
    (sheltered : context.Sheltered) {tracker : Tracker}
    (isTracker : machine.tool.tracker = some tracker) (api : Bool)
    (input : CallInput) (ptr size : Word) :
    Leaves (newEntry nested context api input ptr size machine)
      (newEntryTracked api input ptr size tracker) := by
  unfold newEntry newEntryTracked
  simp only [isTracker, Option.bind_some]
  cases Accounting.mttEntryNew tracker input.rawMalloc
      { ptr, size, timestamp := input.now, stack := input.stack } with
  | none => exact ⟨machine, rfl, isTracker⟩
  | some taken =>
      apply (mttCaptureStack_calm calm sheltered _).bind
      intro captured later
      refine ⟨_, rfl, ?_⟩
      simp only [Machine.mapTool, ToolState.mapTracker_tracker]
      rw [later.tracker]
      simp only [Machine.mapTool, ToolState.mapTracker_tracker, isTracker]
      rfl

theorem tracker_of_running {tool : ToolState} {running : Running}
    (isRunning : tool.running = some running) :
    tool.tracker = some running.tracker := by
  rw [ToolState.tracker, isRunning, Option.map_some]

theorem trackMalloc_leaves (calm : NestedCalm nested)
    (sheltered : context.Sheltered) {running : Running}
    (isRunning : machine.tool.running = some running) (api : Bool)
    (input : CallInput) (size : Word) :
    Leaves (trackMalloc nested context api input size machine)
      (running.malloced api input size) := by
  have isTracker := tracker_of_running isRunning
  unfold trackMalloc Running.malloced
  rw [isRunning]
  cases allocated : input.reply with
  | none => exact ⟨machine, rfl, isTracker⟩
  | some ptr =>
      simp only
      split
      · exact ⟨machine, rfl, isTracker⟩
      · split
        · exact newEntry_leaves calm sheltered
            (mapTracker_const isTracker _) api input ptr size
        · exact ⟨_, rfl, mapTracker_const isTracker _⟩

theorem trackRealloc_leaves (calm : NestedCalm nested)
    (sheltered : context.Sheltered) {tracker : Tracker}
    (isTracker : machine.tool.tracker = some tracker) (api : Bool)
    {input : CallInput} {new : Word} (allocated : input.reply = some new)
    (ptr size : Word) :
    Leaves (trackRealloc nested context api input ptr size machine)
      (replaceTracked api input ptr new size tracker) := by
  unfold trackRealloc replaceTracked
  simp only [allocated, isTracker]
  cases Accounting.mttEntryFind tracker ptr with
  | none => exact ⟨machine, rfl, isTracker⟩
  | some entry =>
      simp only
      cases overCap : (Accounting.mttIsOverCapacity (Accounting.mttEntryRemove
          (if api then countFree tracker entry else countMoved tracker entry)
          ptr)).1 with
      | true => exact ⟨_, rfl, mapTracker_const isTracker _⟩
      | false =>
          exact newEntry_leaves calm sheltered (mapTracker_const isTracker _)
            api input new size

theorem trackReallocFallback_leaves (calm : NestedCalm nested)
    (sheltered : context.Sheltered) {tracker : Tracker}
    (isTracker : machine.tool.tracker = some tracker) (api : Bool)
    {input : CallInput} {new : Word} (allocated : input.reply = some new)
    (ptr size : Word) :
    Leaves (trackReallocFallback nested context api input ptr size machine)
      (replaceFallback api input ptr new size tracker) := by
  unfold trackReallocFallback replaceFallback
  simp only [allocated, isTracker, Option.bind_some]
  cases Accounting.mttEntryNew tracker input.rawMalloc
      { ptr := new, size, timestamp := input.now, stack := input.stack } with
  | none => exact ⟨machine, rfl, isTracker⟩
  | some taken =>
      apply (mttCaptureStack_calm calm sheltered _).bind
      intro captured later
      refine ⟨_, rfl, ?_⟩
      simp only [Machine.mapTool, ToolState.mapTracker_tracker]
      rw [later.tracker]
      simp only [Machine.mapTool, ToolState.mapTracker_tracker, isTracker]
      rfl

theorem reallocTracked_leaves (calm : NestedCalm nested)
    (sheltered : context.Sheltered) {running : Running}
    (isRunning : machine.tool.running = some running) (api : Bool)
    (input : CallInput) (ptr size : Word) :
    Leaves (reallocTracked nested context api input ptr size machine)
      (running.moved api input ptr size) := by
  have isTracker := tracker_of_running isRunning
  unfold reallocTracked Running.moved
  rw [isRunning, Option.any_some]
  cases allocated : input.reply with
  | none =>
      simp only
      split
      · exact ⟨machine, rfl, isTracker⟩
      · split
        · unfold trackRealloc
          rw [allocated]
          exact ⟨machine, rfl, isTracker⟩
        · unfold trackReallocFallback
          rw [allocated]
          exact ⟨machine, rfl, isTracker⟩
  | some new =>
      simp only
      split
      · exact ⟨machine, rfl, isTracker⟩
      · split
        · exact trackRealloc_leaves calm sheltered isTracker api allocated ptr
            size
        · exact trackReallocFallback_leaves calm sheltered isTracker api
            allocated ptr size

theorem freeUnlessDisabled_leaves {running : Running}
    (isRunning : machine.tool.running = some running)
    (free : Tracker → Tracker) :
    Leaves (freeUnlessDisabled machine free)
      (if running.disabled then running.tracker
        else free running.tracker) := by
  have isTracker := tracker_of_running isRunning
  unfold freeUnlessDisabled
  rw [isRunning, Option.any_some]
  split
  · exact ⟨machine, rfl, isTracker⟩
  · refine ⟨_, rfl, ?_⟩
    simp only [Machine.mapTool, ToolState.mapTracker_tracker, isTracker]
    rfl

end Tracked

/-! ## The hooks -/

@[simp] theorem ToolState.resolve_running (tool : ToolState) :
    tool.resolve.running = tool.running := by
  cases tool with
  | mk libs state => cases state <;> rfl

@[simp] theorem ToolState.resolve_accounts (tool : ToolState) :
    tool.resolve.accounts = tool.accounts := by
  cases tool with
  | mk libs state => cases state <;> rfl

@[simp] theorem mttIsLrInBlacklist_resolve (tool : ToolState) (lr : Word) :
    mttIsLrInBlacklist tool.resolve lr = mttIsLrInBlacklist tool lr := by
  cases tool with
  | mk libs state => cases state <;> rfl

theorem Quiet.accounts {before after : ToolState}
    (quiet : Quiet before after) : after.accounts = before.accounts := by
  rcases quiet with rfl | rfl
  · rfl
  · exact before.resolve_accounts

theorem ToolState.accounts_eq (tool : ToolState) (init : InitInput) :
    tool.accounts = trackerAccounts (tool.runningAfter init).tracker := by
  unfold ToolState.accounts ToolState.runningAfter ToolState.tracker
  cases tool.running <;> rfl

/-- If the call returns, the accounts are the same exactly if it does not
touch them. -/
def Settles (outcome : Outcome) (before : ToolState) (touches : Prop) : Prop :=
  ∀ later, outcome = .ok later →
    (later.tool.accounts = before.accounts ↔ ¬ touches)

theorem Settles.of_quiet {outcome : Outcome} {before : ToolState}
    {touches : Prop} (returns : ReturnsWith outcome (Quiet before))
    (silent : ¬ touches) : Settles outcome before touches := by
  intro later isLater
  obtain ⟨same, isSame, quiet⟩ := returns
  cases isLater.symm.trans isSame
  exact iff_of_true quiet.accounts silent

theorem Context.not_passes_of_none {context : Context} {tool : ToolState}
    {lr : Word} (noSlot : context.slot = none) :
    ¬ context.Passes tool lr := by
  intro passes
  obtain ⟨slot, isSlot, -⟩ := passes
  rw [noSlot] at isSlot
  cases isSlot

theorem Context.passes_iff {context : Context} {tool : ToolState}
    {lr : Word} {slot : ThreadSlot} (isSlot : context.slot = some slot) :
    context.Passes tool lr ↔ mttHookEnter (some slot) ≤ 0 ∧
      slot.toolInternal = false ∧ mttIsLrInBlacklist tool lr = false := by
  constructor
  · intro checks
    obtain ⟨other, isOther, passes⟩ := checks
    cases isSlot.symm.trans isOther
    exact passes
  · intro passes
    exact ⟨slot, isSlot, passes⟩

theorem Context.sheltered_of_inside {context : Context} {slot : ThreadSlot}
    (isSlot : context.slot = some slot)
    (inside : 0 < mttHookEnter (some slot)) : context.Sheltered := by
  intro other isOther
  cases isSlot.symm.trans isOther
  exact .inl inside

theorem Context.sheltered_of_internal {context : Context}
    {slot : ThreadSlot} (isSlot : context.slot = some slot)
    (internal : slot.toolInternal = true) : context.Sheltered := by
  intro other isOther
  cases isSlot.symm.trans isOther
  exact .inr internal

theorem Context.sheltered_of_none {context : Context}
    (noSlot : context.slot = none) : context.Sheltered := by
  intro slot isSlot
  rw [noSlot] at isSlot
  cases isSlot

theorem Context.not_passes_of_sheltered {context : Context}
    {tool : ToolState} {lr : Word} (sheltered : context.Sheltered) :
    ¬ context.Passes tool lr := by
  intro passes
  obtain ⟨slot, isSlot, outside, notInternal, -⟩ := passes
  cases sheltered slot isSlot with
  | inl inside => exact Int.not_lt.mpr outside inside
  | inr internal =>
      rw [notInternal] at internal
      cases internal

section Hooks

variable {nested : Nested} {context : Context} {machine : Machine}

theorem ensureInit_accounts (calm : NestedCalm nested)
    (sheltered : context.Sheltered)
    (resolved : machine.tool.resolved.isSome) {init : InitInput}
    {next : Machine → Outcome} {result : Running → Tracker}
    (serves : ∀ ready running, ready.tool.running = some running →
      Leaves (next ready) (result running))
    {later : Machine}
    (returned : (mttEnsureInit nested init context machine >>= next) =
      .ok later) :
    later.tool.accounts =
      trackerAccounts (result (machine.tool.runningAfter init)) := by
  by_cases blocked : machine.tool.running = none ∧ context.initLocked = true
  · rw [mttEnsureInit_blocks nested init blocked.1 blocked.2, error_bind]
      at returned
    cases returned
  · have free : machine.tool.running = none → context.initLocked = false :=
      fun pending =>
        Bool.eq_false_of_not_eq_true fun locked => blocked ⟨pending, locked⟩
    obtain ⟨ready, isReady, running⟩ :=
      mttEnsureInit_runs calm init sheltered resolved free
    rw [isReady, ok_bind] at returned
    obtain ⟨left, isLeft, isTracker⟩ := serves ready _ running
    cases isLeft.symm.trans returned
    rw [ToolState.accounts, isTracker]

/-- A hook goes to the raw allocators, or to its tracked path with the raw
allocators set. -/
theorem throughHook_cases (calm : NestedCalm nested) (lr : Word)
    (noBytes : Bool) (tracked : Machine → Outcome) :
    (¬ (context.Passes machine.tool lr ∧ noBytes = false) ∧
      ReturnsWith (throughHook nested context lr noBytes machine tracked)
        (Quiet machine.tool)) ∨
    (context.Passes machine.tool lr ∧ noBytes = false ∧
      ∃ resolved, resolved.tool = machine.tool.resolve ∧
        throughHook nested context lr noBytes machine tracked =
          tracked resolved) := by
  unfold throughHook
  split
  · rename_i noSlot
    left
    constructor
    · exact fun tracks => Context.not_passes_of_none noSlot tracks.1
    · exact mttResolveRawAllocators_quiet calm.resolving
        (Context.sheltered_of_none noSlot) machine
  · rename_i slot isSlot
    split
    · rename_i inside
      have sheltered := Context.sheltered_of_inside isSlot inside
      left
      constructor
      · exact fun tracks =>
          Context.not_passes_of_sheltered sheltered tracks.1
      · exact mttResolveRawAllocators_quiet calm.resolving sheltered machine
    · rename_i outside
      have hasSlot : context.raised.slot ≠ none := by
        simp [Context.raised, isSlot]
      obtain ⟨resolved, isResolved, same⟩ := mttResolveRawAllocators_resolves
        calm.resolving context.raised_sheltered hasSlot machine
      have isNone : resolved.tool.resolved.isNone = false := by
        rw [same]
        rfl
      have listed : mttIsLrInBlacklist resolved.tool lr =
          mttIsLrInBlacklist machine.tool lr := by
        rw [same, mttIsLrInBlacklist_resolve]
      rw [isResolved, ok_bind, isNone, listed, Bool.or_false]
      split
      · rename_i bypasses
        left
        constructor
        · intro tracks
          obtain ⟨passes, hasBytes⟩ := tracks
          obtain ⟨-, notInternal, notListed⟩ :=
            (Context.passes_iff isSlot).mp passes
          simp [notListed, notInternal, hasBytes] at bypasses
        · exact ⟨resolved, rfl, .inr same⟩
      · rename_i tracks
        simp only [Bool.or_eq_true, not_or, Bool.not_eq_true] at tracks
        right
        refine ⟨?_, tracks.2, resolved, same, rfl⟩
        exact (Context.passes_iff isSlot).mpr
          ⟨Int.not_lt.mp outside, tracks.1.2, tracks.1.1⟩

theorem mttResolveRawAllocators_of_listed {lr : Word}
    (listed : mttIsLrInBlacklist machine.tool lr = true) :
    mttResolveRawAllocators nested context machine = .ok machine := by
  have resolved : machine.tool.resolved.isSome = true := by
    unfold mttIsLrInBlacklist at listed
    split at listed
    · cases listed
    · rename_i resolved isResolved
      rw [isResolved, Option.isSome_some]
  unfold mttResolveRawAllocators
  rw [resolved, Bool.true_or, if_pos rfl]

theorem freeHook_cases (nested : Nested) (context : Context)
    (machine : Machine) (lr : Word) (input : CallInput) (ptr : Word) :
    (¬ (ptr ≠ 0 ∧ mttPoolContains machine.tool ptr = false) ∧
      freeHook nested context lr input ptr machine = .ok machine) ∨
    (ptr ≠ 0 ∧ mttPoolContains machine.tool ptr = false ∧
      freeHook nested context lr input ptr machine =
        throughHook nested context lr false machine fun resolved =>
          mttEnsureInit nested input.init context.raised resolved >>=
            fun ready => freeUnlessDisabled ready fun tracker =>
              freeTracked tracker ptr input.now) := by
  unfold freeHook
  split
  · rename_i null
    exact .inl ⟨fun frees => frees.1 null, rfl⟩
  · rename_i notNull
    split
    · rename_i inPool
      left
      refine ⟨?_, rfl⟩
      intro frees
      obtain ⟨-, outside⟩ := frees
      rw [inPool] at outside
      cases outside
    · rename_i outside
      exact .inr ⟨notNull, Bool.eq_false_of_not_eq_true outside, rfl⟩

theorem callocHook_cases (calm : NestedCalm nested) (input : CallInput)
    (count size : Word) :
    ((∀ total, arraySize count.toNat size.toNat = some total →
        ¬ context.Passes machine.tool input.lr) ∧
      ReturnsWith (callocHook nested context input count size machine)
        (Quiet machine.tool)) ∨
    ∃ total, arraySize count.toNat size.toNat = some total ∧
      context.Passes machine.tool input.lr ∧
      callocHook nested context input count size machine =
        mallocHook nested context input.innerLr input
          (BitVec.ofNat 64 total) machine := by
  have toRaw (sheltered : context.Sheltered) :
      (∀ total, arraySize count.toNat size.toNat = some total →
        ¬ context.Passes machine.tool input.lr) ∧
      ReturnsWith (mttResolveRawAllocators nested context machine)
        (Quiet machine.tool) := by
    constructor
    · exact fun _ _ => Context.not_passes_of_sheltered sheltered
    · exact mttResolveRawAllocators_quiet calm.resolving sheltered machine
  unfold callocHook
  split
  · rename_i noSlot
    exact .inl (toRaw (Context.sheltered_of_none noSlot))
  · rename_i slot isSlot
    split
    · rename_i inside
      exact .inl (toRaw (Context.sheltered_of_inside isSlot inside))
    · rename_i outside
      split
      · rename_i internal
        exact .inl (toRaw (Context.sheltered_of_internal isSlot internal))
      · rename_i notInternal
        rw [Bool.not_eq_true] at notInternal
        split
        · rename_i overflows
          left
          refine ⟨?_, machine, rfl, .refl _⟩
          intro total fits
          rw [overflows] at fits
          cases fits
        · rename_i total fits
          split
          · rename_i listed
            left
            rw [mttResolveRawAllocators_of_listed listed]
            refine ⟨?_, machine, rfl, .refl _⟩
            intro _ _ passes
            obtain ⟨-, -, notListed⟩ := (Context.passes_iff isSlot).mp passes
            rw [notListed] at listed
            cases listed
          · rename_i notListed
            rw [Bool.not_eq_true] at notListed
            right
            refine ⟨total, fits, ?_, rfl⟩
            exact (Context.passes_iff isSlot).mpr
              ⟨Int.not_lt.mp outside, notInternal, notListed⟩

/-- A hook that gets to its tracked path does so after an initialisation. -/
theorem throughHook_settles (calm : NestedCalm nested) (lr : Word)
    (noBytes : Bool) {init : InitInput} {next : Machine → Outcome}
    {result : Running → Tracker} {changes : Running → Prop}
    (serves : ∀ ready running, ready.tool.running = some running →
      Leaves (next ready) (result running))
    (changes_iff : ∀ running,
      trackerAccounts (result running) = trackerAccounts running.tracker ↔
        ¬ changes running) :
    Settles
      (throughHook nested context lr noBytes machine fun resolved =>
        mttEnsureInit nested init context.raised resolved >>= next)
      machine.tool
      (context.Passes machine.tool lr ∧ noBytes = false ∧
        changes (machine.tool.runningAfter init)) := by
  cases throughHook_cases calm lr noBytes fun resolved =>
      mttEnsureInit nested init context.raised resolved >>= next with
  | inl bypasses =>
      apply Settles.of_quiet bypasses.2
      intro tracks
      obtain ⟨passes, hasBytes, -⟩ := tracks
      exact bypasses.1 ⟨passes, hasBytes⟩
  | inr tracks =>
      obtain ⟨passes, hasBytes, resolved, same, isTracked⟩ := tracks
      intro later isLater
      rw [isTracked] at isLater
      have isSome : resolved.tool.resolved.isSome := by
        rw [same]
        rfl
      have after : resolved.tool.runningAfter init =
          machine.tool.runningAfter init := by
        rw [same, ToolState.runningAfter, ToolState.resolve_running]
        rfl
      rw [ensureInit_accounts calm context.raised_sheltered isSome serves
        isLater, after, machine.tool.accounts_eq init, changes_iff]
      simp [passes, hasBytes]

theorem Settles.congr {outcome : Outcome} {before : ToolState}
    {touches other : Prop} (settles : Settles outcome before touches)
    (same : touches ↔ other) : Settles outcome before other := by
  intro later isLater
  rw [settles later isLater, same]

theorem mallocHook_settles (calm : NestedCalm nested) (lr : Word)
    (input : CallInput) (size : Word) :
    Settles (mallocHook nested context lr input size machine) machine.tool
      (MallocTouches context lr input size machine.tool) := by
  apply (throughHook_settles calm lr (size == 0)
    (fun _ _ isRunning => trackMalloc_leaves calm context.raised_sheltered
      isRunning false input size)
    (fun running => running.malloced_accounts_iff false input size)).congr
  simp [MallocTouches]

theorem freeHook_settles (calm : NestedCalm nested) (lr : Word)
    (input : CallInput) (ptr : Word) :
    Settles (freeHook nested context lr input ptr machine) machine.tool
      (FreeTouches context lr input ptr machine.tool) := by
  have changes_iff : ∀ running : Running,
      trackerAccounts (if running.disabled then running.tracker
        else freeTracked running.tracker ptr input.now) =
          trackerAccounts running.tracker ↔ ¬ running.Forgets ptr := by
    intro running
    split
    · rename_i disabled
      simp only [true_iff]
      intro forgets
      rw [forgets.enabled] at disabled
      cases disabled
    · rename_i enabled
      rw [freeTracked_accounts_iff]
      constructor
      · exact fun missing forgets => forgets.found missing
      · intro silent
        by_contra found
        exact silent ⟨Bool.eq_false_of_not_eq_true enabled, found⟩
  cases freeHook_cases nested context machine lr input ptr with
  | inl ignores =>
      rw [ignores.2]
      apply Settles.of_quiet ⟨machine, rfl, .refl _⟩
      exact fun touches => ignores.1 ⟨touches.1, touches.2.1⟩
  | inr frees =>
      obtain ⟨notNull, outside, isHook⟩ := frees
      rw [isHook]
      apply (throughHook_settles calm lr false
        (fun _ _ isRunning => freeUnlessDisabled_leaves isRunning _)
        changes_iff).congr
      constructor
      · intro tracks
        obtain ⟨passes, -, forgets⟩ := tracks
        exact ⟨notNull, outside, passes, forgets⟩
      · intro touches
        obtain ⟨-, -, passes, forgets⟩ := touches
        exact ⟨passes, rfl, forgets⟩

theorem callocHook_settles (calm : NestedCalm nested) (input : CallInput)
    (count size : Word) :
    Settles (callocHook nested context input count size machine) machine.tool
      (Touches context (.calloc count size) input machine.tool) := by
  cases callocHook_cases calm input count size with
  | inl bypasses =>
      apply Settles.of_quiet bypasses.2
      intro touches
      obtain ⟨total, fits, passes, -⟩ := touches
      exact bypasses.1 total fits passes
  | inr allocates =>
      obtain ⟨total, fits, passes, isMalloc⟩ := allocates
      rw [isMalloc]
      apply (mallocHook_settles calm input.innerLr input
        (BitVec.ofNat 64 total)).congr
      constructor
      · exact fun touches => ⟨total, fits, passes, touches⟩
      · intro touched
        obtain ⟨other, isOther, -, touches⟩ := touched
        cases fits.symm.trans isOther
        exact touches

theorem reallocHook_settles (calm : NestedCalm nested) (input : CallInput)
    (ptr size : Word) :
    Settles (reallocHook nested context input ptr size machine) machine.tool
      (Touches context (.realloc ptr size) input machine.tool) := by
  unfold reallocHook Touches
  simp only
  split
  · exact mallocHook_settles calm input.innerLr input size
  · split
    · exact freeHook_settles calm input.innerLr input ptr
    · apply (throughHook_settles calm input.lr false
        (fun _ _ isRunning => reallocTracked_leaves calm
          context.raised_sheltered isRunning false input ptr size)
        (fun running => running.moved_accounts_iff false input ptr size)).congr
      simp

theorem hookCall_settles (calm : NestedCalm nested) (call : Call)
    (input : CallInput) :
    Settles (hookCall nested context call input machine) machine.tool
      (Touches context call input machine.tool) := by
  cases call with
  | malloc size => exact mallocHook_settles calm input.lr input size
  | calloc count size => exact callocHook_settles calm input count size
  | realloc ptr size => exact reallocHook_settles calm input ptr size
  | free ptr => exact freeHook_settles calm input.lr input ptr

end Hooks

end MemoryTraceTool.Nesting
